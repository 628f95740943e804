import GlobalServer.Zone.Destinations
import Mathlib.Data.List.Sort

/-!
# The order of messages

Messages are numbered as they are sent. On a connection to a router they wait
in this order, and what the router sends on over another connection keeps it,
as a list is read from its head and written at its end. A router sends a
message on once, to different servers. So a server handles no message twice,
and those of one connection in the order in which they were sent.
-/

namespace GlobalServer.Zone

open Bytes

variable {ι κ : Type} {c : ι → App.Config} {z z' : Zone ι κ} {sent : Nat → Packet}

/-- The messages that have been handled from the connection `k`. -/
def takenOver (t : List Entry) (k : Nat) : List Packet :=
  t.filterMap fun x => x.took.bind fun m => if m.1 = k then some m.2 else none

/-- What has come over a connection: what its server has handled, and what waits for it. -/
def line (trace : ι → List Entry) (k : Nat) (l : Link ι κ) : List Packet := takenOver (trace l.server) k ++ l.down

/-- `sent` are the messages by their numbers. -/
structure Ord (sent : Nat → Packet) (z : Zone ι κ) : Prop where
  gave : ∀ i, ∀ p ∈ (z.trace i).filterMap Entry.gave,
    p.no < z.next ∧ ∃ k l, p.via = some k ∧ z.link k = some l ∧ l.server = i
  gaveSorted : ∀ i, ((z.trace i).filterMap Entry.gave).Pairwise fun p q => p.no < q.no
  took : ∀ i, ∀ x ∈ z.trace i, ∀ k p, x.took = some (k, p) → ∃ l, z.link k = some l ∧ l.server = i
  top : ∀ k l, z.link k = some l → k < z.linkTop
  up : ∀ k l, z.link k = some l → ∀ p ∈ l.up, p.via = some k ∧ p.no < z.next ∧ sent p.no = p
  upSorted : ∀ k l, z.link k = some l → l.up.Pairwise fun p q => p.no < q.no
  come : ∀ k l, z.link k = some l → ∀ p ∈ line z.trace k l, p.no < z.next ∧ sent p.no = p
  /-- what has been sent on is before what waits to be -/
  behind : ∀ k l, z.link k = some l → ∀ p ∈ line z.trace k l, ∀ k₀ l₀, p.via = some k₀ → z.link k₀ = some l₀ →
    ∀ q ∈ l₀.up, p.no < q.no
  lineSorted : ∀ k l, z.link k = some l → (line z.trace k l).Pairwise fun p q => p.via = q.via → p.no < q.no
  once : ∀ k l k' l', z.link k = some l → z.link k' = some l' → l.server = l'.server →
    ∀ p ∈ line z.trace k l, p ∈ line z.trace k' l' → k = k'
  sets : ∀ j, SetsOk (z.router j).severInstanceMgr

/-- Nothing has been sent, and what waits or has come may be less. -/
structure Shrinks (z z' : Zone ι κ) : Prop where
  next : z'.next = z.next
  linkTop : z'.linkTop = z.linkTop
  gave : ∀ i, (z'.trace i).filterMap Entry.gave = (z.trace i).filterMap Entry.gave
  took : ∀ i, ∀ x ∈ z'.trace i, x ∈ z.trace i ∨ ∀ k p, x.took = some (k, p) → ∃ l, z.link k = some l ∧ l.server = i
  kept : ∀ k l, z.link k = some l → ∃ l', z'.link k = some l' ∧ l'.server = l.server
  back : ∀ k l', z'.link k = some l' → ∃ l, z.link k = some l ∧ l'.server = l.server ∧ l'.up.Sublist l.up ∧
    (line z'.trace k l').Sublist (line z.trace k l)

theorem setLink_back {k k' : Nat} {l m : Link ι κ} (h : (z.setLink k l).link k' = some m) :
    (k' = k ∧ m = l) ∨ (k' ≠ k ∧ z.link k' = some m) := by
  by_cases hk : k' = k
  · subst hk
    exact .inl ⟨rfl, by simpa using h.symm⟩
  · exact .inr ⟨hk, by simpa [hk] using h⟩

theorem setLink_kept {k : Nat} {l n : Link ι κ} (hl : z.link k = some l) (hs : n.server = l.server) {i : ι} {k' : Nat}
    (h : ∃ m, z.link k' = some m ∧ m.server = i) : ∃ m, (z.setLink k n).link k' = some m ∧ m.server = i := by
  obtain ⟨m, hm, hi⟩ := h
  by_cases hk : k' = k
  · subst hk
    obtain rfl := Option.some.inj (hm.symm.trans hl)
    exact ⟨n, by simp, hs.trans hi⟩
  · exact ⟨m, by simpa [hk] using hm, hi⟩

namespace Ord

theorem shrink (h : Ord sent z) (hs : Shrinks z z') (hsets : ∀ j, SetsOk (z'.router j).severInstanceMgr) : Ord sent z' := by
  have hkept : ∀ i k, (∃ l, z.link k = some l ∧ l.server = i) → ∃ l, z'.link k = some l ∧ l.server = i := by
    rintro i k ⟨l, hl, rfl⟩
    exact hs.kept k l hl
  refine ⟨?_, ?_, ?_, ?_, ?_, ?_, ?_, ?_, ?_, ?_, hsets⟩
  · intro i p hp
    rw [hs.gave] at hp
    obtain ⟨hlt, k, l, hv, hl⟩ := h.gave i p hp
    obtain ⟨l', hl'⟩ := hkept i k ⟨l, hl⟩
    exact ⟨by rw [hs.next]; exact hlt, k, l', hv, hl'⟩
  · intro i
    rw [hs.gave]
    exact h.gaveSorted i
  · intro i x hx k p hp
    apply hkept
    rcases hs.took i x hx with hx | hx
    · exact h.took i x hx k p hp
    · exact hx k p hp
  · intro k l' hl'
    obtain ⟨l, hl, -⟩ := hs.back k l' hl'
    rw [hs.linkTop]
    exact h.top k l hl
  · intro k l' hl' p hp
    obtain ⟨l, hl, -, hup, -⟩ := hs.back k l' hl'
    rw [hs.next]
    exact h.up k l hl p (hup.subset hp)
  · intro k l' hl'
    obtain ⟨l, hl, -, hup, -⟩ := hs.back k l' hl'
    exact (h.upSorted k l hl).sublist hup
  · intro k l' hl' p hp
    obtain ⟨l, hl, -, -, hline⟩ := hs.back k l' hl'
    rw [hs.next]
    exact h.come k l hl p (hline.subset hp)
  · intro k l' hl' p hp k₀ l₀' hv hl₀' q hq
    obtain ⟨l, hl, -, -, hline⟩ := hs.back k l' hl'
    obtain ⟨l₀, hl₀, -, hup, -⟩ := hs.back k₀ l₀' hl₀'
    exact h.behind k l hl p (hline.subset hp) k₀ l₀ hv hl₀ q (hup.subset hq)
  · intro k l' hl'
    obtain ⟨l, hl, -, -, hline⟩ := hs.back k l' hl'
    exact (h.lineSorted k l hl).sublist hline
  · intro k₁ l₁' k₂ l₂' hl₁' hl₂' he p hp₁ hp₂
    obtain ⟨l₁, hl₁, hs₁, -, hline₁⟩ := hs.back k₁ l₁' hl₁'
    obtain ⟨l₂, hl₂, hs₂, -, hline₂⟩ := hs.back k₂ l₂' hl₂'
    exact h.once k₁ l₁ k₂ l₂ hl₁ hl₂ (by rw [← hs₁, ← hs₂, he]) p (hline₁.subset hp₁) (hline₂.subset hp₂)

theorem fresh (h : Ord sent z) (p : Packet) : Ord (Function.update sent z.next p) { z with next := z.next + 1 } := by
  have hold : ∀ q : Packet, q.no < z.next ∧ sent q.no = q →
      q.no < z.next + 1 ∧ Function.update sent z.next p q.no = q := by
    rintro q ⟨hlt, hq⟩
    exact ⟨Nat.lt_succ_of_lt hlt, by rw [Function.update_of_ne (Nat.ne_of_lt hlt), hq]⟩
  refine ⟨?_, h.gaveSorted, h.took, h.top, ?_, h.upSorted, ?_, h.behind, h.lineSorted, h.once, h.sets⟩
  · intro i q hq
    obtain ⟨hlt, hvia⟩ := h.gave i q hq
    exact ⟨Nat.lt_succ_of_lt hlt, hvia⟩
  · intro k l hl q hq
    obtain ⟨hv, hq⟩ := h.up k l hl q hq
    exact ⟨hv, hold q hq⟩
  · intro k l hl q hq
    exact hold q (h.come k l hl q hq)

theorem pushUp (h : Ord sent z) {k : Nat} {l : Link ι κ} (hl : z.link k = some l) {p : Packet} (hv : p.via = some k)
    (hlt : p.no < z.next) (hp : sent p.no = p) (hup : ∀ q ∈ l.up, q.no < p.no)
    (hline : ∀ k' l', z.link k' = some l' → ∀ q ∈ line z.trace k' l', q.no < p.no) :
    Ord sent (z.setLink k (l.pushUp p)) := by
  have hserver : ∀ k' m, (z.setLink k (l.pushUp p)).link k' = some m →
      ∃ m', z.link k' = some m' ∧ m.server = m'.server ∧ line z.trace k' m = line z.trace k' m' := by
    intro k' m hm
    rcases setLink_back hm with ⟨rfl, rfl⟩ | ⟨-, hm⟩
    · exact ⟨l, hl, rfl, rfl⟩
    · exact ⟨m, hm, rfl, rfl⟩
  refine ⟨?_, h.gaveSorted, ?_, ?_, ?_, ?_, ?_, ?_, ?_, ?_, h.sets⟩
  · intro i q hq
    obtain ⟨hq, k', l', hv', hl', hi⟩ := h.gave i q hq
    obtain ⟨m, hm⟩ := setLink_kept (n := l.pushUp p) hl rfl ⟨l', hl', hi⟩
    exact ⟨hq, k', m, hv', hm⟩
  · intro i x hx k' q hq
    exact setLink_kept (n := l.pushUp p) hl rfl (h.took i x hx k' q hq)
  · intro k' m hm
    obtain ⟨m', hm', -⟩ := hserver k' m hm
    exact h.top k' m' hm'
  · intro k' m hm q hq
    rcases setLink_back hm with ⟨rfl, rfl⟩ | ⟨-, hm⟩
    · rcases List.mem_append.mp hq with hq | hq
      · exact h.up k' l hl q hq
      · rw [List.mem_singleton.mp hq]
        exact ⟨hv, hlt, hp⟩
    · exact h.up k' m hm q hq
  · intro k' m hm
    rcases setLink_back hm with ⟨rfl, rfl⟩ | ⟨-, hm⟩
    · refine List.pairwise_append.mpr ⟨h.upSorted k' l hl, List.pairwise_singleton _ _, ?_⟩
      intro q hq r hr
      rw [List.mem_singleton.mp hr]
      exact hup q hq
    · exact h.upSorted k' m hm
  · intro k' m hm q hq
    obtain ⟨m', hm', -, hsame⟩ := hserver k' m hm
    exact h.come k' m' hm' q (hsame ▸ hq)
  · intro k' m hm q hq k₀ l₀ hv₀ hl₀ r hr
    obtain ⟨m', hm', -, hsame⟩ := hserver k' m hm
    have hq' : q ∈ line z.trace k' m' := hsame ▸ hq
    rcases setLink_back hl₀ with ⟨rfl, rfl⟩ | ⟨-, hl₀⟩
    · rcases List.mem_append.mp hr with hr | hr
      · exact h.behind k' m' hm' q hq' k₀ l hv₀ hl r hr
      · rw [List.mem_singleton.mp hr]
        exact hline k' m' hm' q hq'
    · exact h.behind k' m' hm' q hq' k₀ l₀ hv₀ hl₀ r hr
  · intro k' m hm
    obtain ⟨m', hm', -, hsame⟩ := hserver k' m hm
    have := h.lineSorted k' m' hm'
    rwa [← hsame] at this
  · intro k₁ m₁ k₂ m₂ hm₁ hm₂ he q hq₁ hq₂
    obtain ⟨m₁', hm₁', hs₁, hsame₁⟩ := hserver k₁ m₁ hm₁
    obtain ⟨m₂', hm₂', hs₂, hsame₂⟩ := hserver k₂ m₂ hm₂
    exact h.once k₁ m₁' k₂ m₂' hm₁' hm₂' (by rw [← hs₁, ← hs₂, he]) q (hsame₁ ▸ hq₁) (hsame₂ ▸ hq₂)

/-- A message comes over the connection `k` that has not come to its server, and before which nothing waits to be sent on. -/
theorem pushDown (h : Ord sent z) {k : Nat} {l : Link ι κ} (hl : z.link k = some l) {p : Packet} (hlt : p.no < z.next)
    (hp : sent p.no = p) (hup : ∀ k₀ l₀, p.via = some k₀ → z.link k₀ = some l₀ → ∀ q ∈ l₀.up, p.no < q.no)
    (hline : ∀ k' l', z.link k' = some l' → l'.server = l.server → ∀ q ∈ line z.trace k' l', q.via = p.via → q.no < p.no) :
    Ord sent (z.setLink k (l.pushDown p)) := by
  have hnew : ∀ k' l', z.link k' = some l' → l'.server = l.server → p ∉ line z.trace k' l' := by
    intro k' l' hl' he hmem
    exact Nat.lt_irrefl _ (hline k' l' hl' he p hmem rfl)
  have hpush : line z.trace k (l.pushDown p) = line z.trace k l ++ [p] := by
    simp [line, Link.pushDown]
  have hback : ∀ k' m, (z.setLink k (l.pushDown p)).link k' = some m →
      ∃ m', z.link k' = some m' ∧ m.server = m'.server ∧ m.up = m'.up ∧
        ((k' = k ∧ m' = l ∧ line z.trace k' m = line z.trace k' m' ++ [p]) ∨
          line z.trace k' m = line z.trace k' m') := by
    intro k' m hm
    rcases setLink_back hm with ⟨rfl, rfl⟩ | ⟨-, hm⟩
    · exact ⟨l, hl, rfl, rfl, .inl ⟨rfl, rfl, hpush⟩⟩
    · exact ⟨m, hm, rfl, rfl, .inr rfl⟩
  have hmem : ∀ k' m, (z.setLink k (l.pushDown p)).link k' = some m → ∀ q ∈ line z.trace k' m,
      ∃ m', z.link k' = some m' ∧ m.server = m'.server ∧ (q ∈ line z.trace k' m' ∨ (k' = k ∧ m' = l ∧ q = p)) := by
    intro k' m hm q hq
    obtain ⟨m', hm', hs, -, ⟨rfl, rfl, hl'⟩ | hl'⟩ := hback k' m hm
    · rw [hl'] at hq
      rcases List.mem_append.mp hq with hq | hq
      · exact ⟨m', hm', hs, .inl hq⟩
      · exact ⟨m', hm', hs, .inr ⟨rfl, rfl, List.mem_singleton.mp hq⟩⟩
    · exact ⟨m', hm', hs, .inl (hl' ▸ hq)⟩
  refine ⟨?_, h.gaveSorted, ?_, ?_, ?_, ?_, ?_, ?_, ?_, ?_, h.sets⟩
  · intro i q hq
    obtain ⟨hq, k', l', hv', hl', hi⟩ := h.gave i q hq
    obtain ⟨m, hm⟩ := setLink_kept (n := l.pushDown p) hl rfl ⟨l', hl', hi⟩
    exact ⟨hq, k', m, hv', hm⟩
  · intro i x hx k' q hq
    exact setLink_kept (n := l.pushDown p) hl rfl (h.took i x hx k' q hq)
  · intro k' m hm
    obtain ⟨m', hm', -⟩ := hback k' m hm
    exact h.top k' m' hm'
  · intro k' m hm q hq
    obtain ⟨m', hm', -, hu, -⟩ := hback k' m hm
    exact h.up k' m' hm' q (hu ▸ hq)
  · intro k' m hm
    obtain ⟨m', hm', -, hu, -⟩ := hback k' m hm
    rw [hu]
    exact h.upSorted k' m' hm'
  · intro k' m hm q hq
    obtain ⟨m', hm', -, hq | ⟨-, -, rfl⟩⟩ := hmem k' m hm q hq
    · exact h.come k' m' hm' q hq
    · exact ⟨hlt, hp⟩
  · intro k' m hm q hq k₀ l₀ hv₀ hl₀ r hr
    obtain ⟨l₀', hl₀', -, hu, -⟩ := hback k₀ l₀ hl₀
    obtain ⟨m', hm', -, hq | ⟨-, -, rfl⟩⟩ := hmem k' m hm q hq
    · exact h.behind k' m' hm' q hq k₀ l₀' hv₀ hl₀' r (hu ▸ hr)
    · exact hup k₀ l₀' hv₀ hl₀' r (hu ▸ hr)
  · intro k' m hm
    obtain ⟨m', hm', -, -, ⟨rfl, rfl, hl'⟩ | hl'⟩ := hback k' m hm
    · change (line z.trace k' m).Pairwise _
      rw [hl']
      refine List.pairwise_append.mpr ⟨h.lineSorted k' m' hm', List.pairwise_singleton _ _, ?_⟩
      intro q hq r hr hv
      rw [List.mem_singleton.mp hr] at hv ⊢
      exact hline k' m' hm' rfl q hq hv
    · change (line z.trace k' m).Pairwise _
      rw [hl']
      exact h.lineSorted k' m' hm'
  · intro k₁ m₁ k₂ m₂ hm₁ hm₂ he q hq₁ hq₂
    obtain ⟨m₁', hm₁', hs₁, hr₁⟩ := hmem k₁ m₁ hm₁ q hq₁
    obtain ⟨m₂', hm₂', hs₂, hr₂⟩ := hmem k₂ m₂ hm₂ q hq₂
    rw [hs₁, hs₂] at he
    rcases hr₁ with hr₁ | ⟨hk₁, hml₁, hqp⟩ <;> rcases hr₂ with hr₂ | ⟨hk₂, hml₂, hqp'⟩
    · exact h.once k₁ m₁' k₂ m₂' hm₁' hm₂' he q hr₁ hr₂
    · exact absurd (hqp' ▸ hr₁) (hnew k₁ m₁' hm₁' (by rw [he, hml₂]))
    · exact absurd (hqp ▸ hr₂) (hnew k₂ m₂' hm₂' (by rw [← he, hml₁]))
    · exact hk₁.trans hk₂.symm

end Ord

/-! ## What servers do -/

theorem takenOver_concat (t : List Entry) (x : Entry) (k : Nat) :
    takenOver (t ++ [x]) k = takenOver t k ++ (x.took.bind fun m => if m.1 = k then some m.2 else none).toList := by
  unfold takenOver
  rw [List.filterMap_append]
  cases h : x.took.bind fun m => if m.1 = k then some m.2 else none <;> simp only [List.filterMap_cons, List.filterMap_nil, h] <;> rfl

section
variable [DecidableEq ι]

theorem record_line {i : ι} {x : Entry} (hx : x.took = none) (a : App) (k : Nat) (l : Link ι κ) :
    line (z.record i x a).trace k l = line z.trace k l := by
  unfold line
  by_cases hi : l.server = i
  · simp [hi, takenOver_concat, hx]
  · simp [hi]

theorem mem_record {i i' : ι} {x y : Entry} {a : App} (hy : y ∈ (z.record i x a).trace i') :
    y ∈ z.trace i' ∨ (i' = i ∧ y = x) := by
  by_cases hi : i' = i
  · subst hi
    simpa using hy
  · exact .inl (by simpa [hi] using hy)

theorem record_shrinks {i : ι} {x : Entry} (htook : x.took = none) (hgave : x.gave = none) (a : App) :
    Shrinks z (z.record i x a) := by
  refine ⟨rfl, rfl, ?_, ?_, fun k l hl => ⟨l, hl, rfl⟩, ?_⟩
  · intro i'
    by_cases hi : i' = i
    · subst hi
      simp [List.filterMap_append, hgave]
    · simp [hi]
  · intro i' y hy
    rcases mem_record hy with hy | ⟨-, rfl⟩
    · exact .inl hy
    · simp [htook]
  · intro k l hl
    refine ⟨l, hl, rfl, .refl _, ?_⟩
    rw [record_line htook]

theorem Ord.recordGave (h : Ord sent z) {i : ι} {x : Entry} {p : Packet} (htook : x.took = none) (hgave : x.gave = some p)
    (hlt : p.no < z.next) (hvia : ∃ k l, p.via = some k ∧ z.link k = some l ∧ l.server = i)
    (hnew : ∀ q ∈ (z.trace i).filterMap Entry.gave, q.no < p.no) (a : App) : Ord sent (z.record i x a) := by
  have hsame : ∀ k l, line (z.record i x a).trace k l = line z.trace k l := record_line htook a
  refine ⟨?_, ?_, ?_, h.top, h.up, h.upSorted, ?_, ?_, ?_, ?_, h.sets⟩
  · intro i' q hq
    obtain ⟨y, hy, hyq⟩ := List.mem_filterMap.mp hq
    rcases mem_record hy with hy | ⟨rfl, rfl⟩
    · exact h.gave i' q (List.mem_filterMap.mpr ⟨y, hy, hyq⟩)
    · obtain rfl := Option.some.inj (hgave.symm.trans hyq)
      exact ⟨hlt, hvia⟩
  · intro i'
    by_cases hi : i' = i
    · subst hi
      rw [record_trace, Function.update_self, List.filterMap_append]
      refine List.pairwise_append.mpr ⟨h.gaveSorted i', by simp [hgave], ?_⟩
      intro q hq r hr
      obtain rfl : r = p := by simpa [hgave] using hr
      exact hnew q hq
    · simpa [hi] using h.gaveSorted i'
  · intro i' y hy k q hq
    rcases mem_record hy with hy | ⟨-, rfl⟩
    · exact h.took i' y hy k q hq
    · simp [htook] at hq
  · intro k l hl q hq
    exact h.come k l hl q (hsame k l ▸ hq)
  · intro k l hl q hq
    exact h.behind k l hl q (hsame k l ▸ hq)
  · intro k l hl
    rw [hsame]
    exact h.lineSorted k l hl
  · intro k l k' l' hl hl' he q hq hq'
    exact h.once k l k' l' hl hl' he q (hsame k l ▸ hq) (hsame k' l' ▸ hq')

theorem deliver_shrinks {k : Nat} {l : Link ι κ} (hl : z.link k = some l) {p : Packet} {down : List Packet}
    (hd : l.down = p :: down) {x : Entry} (htook : x.took = some (k, p)) (hgave : x.gave = none) (a : App) :
    Shrinks z ((z.record l.server x a).setLink k { l with down }) := by
  have htaken : ∀ i k', k' ≠ k → takenOver ((z.record l.server x a).trace i) k' = takenOver (z.trace i) k' := by
    intro i k' hk
    by_cases hi : i = l.server
    · subst hi
      simp [takenOver_concat, htook, Ne.symm hk]
    · simp [hi]
  refine ⟨rfl, rfl, ?_, ?_, ?_, ?_⟩
  · intro i'
    by_cases hi : i' = l.server
    · subst hi
      simp [List.filterMap_append, hgave]
    · simp [hi]
  · intro i' y hy
    rcases mem_record (z := z) (a := a) hy with hy | ⟨rfl, rfl⟩
    · exact .inl hy
    · refine .inr ?_
      intro k' q hq
      obtain ⟨rfl, rfl⟩ := Prod.mk.inj (Option.some.inj (htook.symm.trans hq))
      exact ⟨l, hl, rfl⟩
  · intro k' m hm
    exact setLink_kept (z := z.record l.server x a) (n := { l with down }) hl rfl ⟨m, hm, rfl⟩
  · intro k' m hm
    rcases setLink_back hm with ⟨rfl, rfl⟩ | ⟨hk, hm⟩
    · refine ⟨l, hl, rfl, .refl _, ?_⟩
      simp [line, takenOver_concat, htook, hd]
    · refine ⟨m, hm, rfl, .refl _, ?_⟩
      simp only [line, setLink_trace, htaken m.server k' hk]
      exact .refl _

end

/-! ## Forwarding -/

theorem Inv.destKey (h : Inv c z) {j : κ} {frame : AppHeadFrame} {d : Dest × Int} (hd : d ∈ (z.router j).dests frame)
    {t : UInt32} {id : Int} (hdst : d.1 = .inst t id) {k : Nat} (ht : (z.router j).table d.2 = some k) {l : Link ι κ}
    (hl : z.link k = some l) : Zone.destKey d = some (key (c l.server)) := by
  rcases mem_dests hd with htr | ⟨id', rfl, h0, -⟩
  · rw [hdst] at htr
    cases htr
  · obtain ⟨k', l', ht', hl', hkey⟩ := h.registry j _ h0
    obtain rfl : k = k' := Option.some.inj (ht.symm.trans ht')
    obtain rfl := Option.some.inj (hl.symm.trans hl')
    exact congrArg some hkey.symm

/-- The message may go to the keys. -/
structure Passes (c : ι → App.Config) (sent : Nat → Packet) (z : Zone ι κ) (p : Packet) (keys : List Int) : Prop where
  lt : p.no < z.next
  sent : sent p.no = p
  up : ∀ k l, p.via = some k → z.link k = some l → ∀ q ∈ l.up, p.no < q.no
  line : ∀ k l, z.link k = some l → key (c l.server) ∈ keys → ∀ q ∈ line z.trace k l, q.via = p.via → q.no < p.no

/-- Where a message is put: on a connection of the server with the key, or nowhere. -/
theorem hand_cases (h : Inv c z) {j : κ} {p : Packet} {d : Dest × Int} (hd : d ∈ (z.router j).dests p.frame) :
    hand j p z d = z ∨ ∃ k l, z.link k = some l ∧ Zone.destKey d = some (key (c l.server)) ∧
      hand j p z d = z.setLink k (l.pushDown p) := by
  unfold hand
  split
  · next t id k hdst ht =>
    unfold push
    split
    · exact .inl rfl
    · next l hl => exact .inr ⟨k, l, hl, h.destKey hd hdst ht hl, rfl⟩
  · exact .inl rfl

theorem Passes.hand (h : Inv c z) {j : κ} {p : Packet} {d : Dest × Int} (hd : d ∈ (z.router j).dests p.frame)
    {keys : List Int} (hn : ∀ x, Zone.destKey d = some x → x ∉ keys) (hp : Passes c sent z p keys) :
    Passes c sent (hand j p z d) p keys := by
  rcases hand_cases h hd with he | ⟨k, l, hl, hkey, he⟩
  · rw [he]
    exact hp
  · rw [he]
    refine ⟨hp.lt, hp.sent, ?_, ?_⟩
    · intro k' m hv hm
      rcases setLink_back hm with ⟨rfl, rfl⟩ | ⟨-, hm⟩
      · exact hp.up k' l hv hl
      · exact hp.up k' m hv hm
    · intro k' m hm hmem
      rcases setLink_back hm with ⟨rfl, rfl⟩ | ⟨-, hm⟩
      · exact absurd hmem (hn _ hkey)
      · exact hp.line k' m hm hmem

theorem Ord.hand (h : Inv c z) (ho : Ord sent z) {j : κ} {p : Packet} {d : Dest × Int}
    (hd : d ∈ (z.router j).dests p.frame) {keys : List Int} (hk : ∀ x, Zone.destKey d = some x → x ∈ keys)
    (hp : Passes c sent z p keys) : Ord sent (Zone.hand j p z d) := by
  rcases hand_cases h hd with he | ⟨k, l, hl, hkey, he⟩
  · rw [he]
    exact ho
  · rw [he]
    refine ho.pushDown hl hp.lt hp.sent (fun k₀ l₀ hv hl₀ => hp.up k₀ l₀ hv hl₀) ?_
    intro k' l' hl' hs
    exact hp.line k' l' hl' (hs ▸ hk _ hkey)

/-- The keys of the destinations are different ones, so at each there is still nothing of the message. -/
theorem Ord.handAll {j : κ} {p : Packet} (hv : p.via ≠ none) : ∀ (ds : List (Dest × Int)) {z : Zone ι κ}, Inv c z →
    Ord sent z → (∃ i, Gave z.trace i p) → (∀ d ∈ ds, d ∈ (z.router j).dests p.frame) →
    (ds.filterMap Zone.destKey).Nodup → Passes c sent z p (ds.filterMap Zone.destKey) →
    Ord sent (ds.foldl (Zone.hand j p) z)
  | [], _, _, ho, _, _, _, _ => ho
  | d :: ds, z, h, ho, hg, hd, hn, hp => by
    have hd₀ := hd d List.mem_cons_self
    have hin : ∀ x, Zone.destKey d = some x → x ∈ (d :: ds).filterMap Zone.destKey := by
      intro x hx
      simp [hx]
    have hout : ∀ x, Zone.destKey d = some x → x ∉ ds.filterMap Zone.destKey := by
      intro x hx
      rw [List.filterMap_cons, hx] at hn
      exact (List.nodup_cons.mp hn).1
    have hsub : (ds.filterMap Zone.destKey).Sublist ((d :: ds).filterMap Zone.destKey) :=
      (List.sublist_cons_self d ds).filterMap _
    have hp' : Passes c sent z p (ds.filterMap Zone.destKey) :=
      ⟨hp.lt, hp.sent, hp.up, fun k l hl hm => hp.line k l hl (hsub.subset hm)⟩
    refine handAll hv ds (h.hand hv hg hd₀) (ho.hand h hd₀ hin hp) (by simpa using hg) ?_ (hn.sublist hsub)
      (hp'.hand h hd₀ hout)
    intro d' hd'
    simpa using hd d' (List.mem_cons_of_mem d hd')

/-! ## Runs -/

theorem setLink_shrinks {k : Nat} {l n : Link ι κ} (hl : z.link k = some l) (hs : n.server = l.server)
    (hup : n.up.Sublist l.up) (hdown : n.down.Sublist l.down) : Shrinks z (z.setLink k n) := by
  refine ⟨rfl, rfl, fun _ => rfl, fun _ _ hx => .inl hx, ?_, ?_⟩
  · intro k' m hm
    exact setLink_kept hl hs ⟨m, hm, rfl⟩
  · intro k' m hm
    rcases setLink_back hm with ⟨rfl, rfl⟩ | ⟨-, hm⟩
    · refine ⟨l, hl, hs, hup, ?_⟩
      unfold line
      rw [hs]
      exact (List.Sublist.refl _).append hdown
    · exact ⟨m, hm, rfl, .refl _, .refl _⟩

theorem push_next (k n : Nat) (f : Link ι κ → Link ι κ) :
    { z.push k f with next := n } = ({ z with next := n } : Zone ι κ).push k f := by
  unfold push
  cases z.link k <;> rfl

namespace Ord

theorem setLink (h : Ord sent z) {k : Nat} {l n : Link ι κ} (hl : z.link k = some l) (hs : n.server = l.server)
    (hup : n.up.Sublist l.up) (hdown : n.down.Sublist l.down) : Ord sent (z.setLink k n) :=
  h.shrink (setLink_shrinks hl hs hup hdown) h.sets

theorem setRouter [DecidableEq κ] (h : Ord sent z) {j : κ} {r : Router} (hr : SetsOk r.severInstanceMgr) :
    Ord sent (z.setRouter j r) :=
  h.shrink ⟨rfl, rfl, fun _ => rfl, fun _ _ hx => .inl hx, fun _ l hl => ⟨l, hl, rfl⟩,
    fun _ l hl => ⟨l, hl, rfl, .refl _, .refl _⟩⟩ (setsOk_setRouter h.sets hr)

theorem withAppTable (h : Ord sent z) (t : ι → Int → Option Nat) : Ord sent { z with appTable := t } :=
  ⟨h.gave, h.gaveSorted, h.took, h.top, h.up, h.upSorted, h.come, h.behind, h.lineSorted, h.once, h.sets⟩

theorem send (h : Ord sent { z with next := z.next + 1 }) {k : Nat} {l : Link ι κ} (hl : z.link k = some l)
    {frame : AppHeadFrame} {body : Body} (hp : sent z.next = z.packet (some k) frame body)
    (hup : ∀ q ∈ l.up, q.no < z.next)
    (hline : ∀ k' l', z.link k' = some l' → ∀ q ∈ line z.trace k' l', q.no < z.next) : Ord sent (z.send k frame body) := by
  unfold Zone.send
  rw [push_next]
  unfold Zone.push
  simp only [hl]
  exact h.pushUp hl rfl (Nat.lt_succ_self _) hp hup hline

theorem stepApp [DecidableEq ι] (hi : Inv c z) (h : Ord sent z) {i : ι} {e : Event} {data : List UInt8} {z' : Zone ι κ}
    (hst : z.stepApp i e data = some z') : ∃ sent, Ord sent z' := by
  obtain ⟨a, ha, hst⟩ := Option.bind_eq_some_iff.mp hst
  split at hst
  · obtain ⟨-, hst⟩ := Option.ite_none_right_eq_some.mp hst
    obtain rfl := Option.some.inj hst
    exact ⟨sent, h.shrink (record_shrinks rfl rfl a) h.sets⟩
  · next k frame hout =>
    obtain ⟨-, hst⟩ := Option.ite_none_right_eq_some.mp hst
    obtain rfl := Option.some.inj hst
    obtain ⟨out, -, hk⟩ := Option.bind_eq_some_iff.mp hout
    obtain ⟨k', ht, hk⟩ := Option.map_eq_some_iff.mp hk
    obtain ⟨hk', -⟩ := Prod.mk.inj hk
    rw [hk'] at ht
    obtain ⟨l, hl, hs⟩ := hi.appTable i out.1 k ht
    have hfresh := h.fresh (z.packet (some k) frame (.bytes data))
    have hrec := hfresh.recordGave (i := i) (x := ⟨e, none, some (z.packet (some k) frame (.bytes data))⟩) rfl rfl
      (Nat.lt_succ_self _) ⟨k, l, rfl, hl, hs⟩ (fun q hq => (h.gave i q hq).1) a
    refine ⟨_, send (z := z.record i _ a) hrec hl (Function.update_self ..) (fun q hq => (h.up k l hl q hq).2.1) ?_⟩
    intro k' l' hl' q hq
    rw [record_line rfl] at hq
    exact (h.come k' l' hl' q hq).1

theorem stepRegist (hi : Inv c z) (h : Ord sent z) {i : ι} {p : Nat} {fd : Int} {len : UInt32} {z' : Zone ι κ}
    (hst : z.stepRegist i p fd len = some z') : ∃ sent, Ord sent z' := by
  obtain ⟨k, ht, hst⟩ := Option.bind_eq_some_iff.mp hst
  obtain ⟨-, hst⟩ := Option.ite_none_right_eq_some.mp hst
  obtain rfl := Option.some.inj hst
  obtain ⟨l, hl, -⟩ := hi.appTable i fd k ht
  exact ⟨_, (h.fresh _).send hl (Function.update_self ..) (fun q hq => (h.up k l hl q hq).2.1)
    fun k' l' hl' q hq => (h.come k' l' hl' q hq).1⟩

theorem stepDeliver [DecidableEq ι] (h : Ord sent z) {k : Nat} {target : Option Nat} {z' : Zone ι κ}
    (hst : z.stepDeliver k target = some z') : Ord sent z' := by
  obtain ⟨l, hl, hst⟩ := Option.bind_eq_some_iff.mp hst
  obtain ⟨fd, -, hst⟩ := Option.bind_eq_some_iff.mp hst
  obtain ⟨-, -, hst⟩ := Option.bind_eq_some_iff.mp hst
  split at hst
  · cases hst
  · next p down hd =>
    obtain ⟨a, -, rfl⟩ := Option.map_eq_some_iff.mp hst
    exact h.shrink (deliver_shrinks hl hd rfl rfl a) h.sets

theorem stepRoute (hi : Inv c z) (h : Ord sent z) {k : Nat} {z' : Zone ι κ} (hst : z.stepRoute k = some z') :
    Ord sent z' := by
  obtain ⟨l, hl, hst⟩ := Option.bind_eq_some_iff.mp hst
  obtain ⟨fd, -, hst⟩ := Option.bind_eq_some_iff.mp hst
  obtain ⟨-, -, hst⟩ := Option.bind_eq_some_iff.mp hst
  split at hst
  · cases hst
  · next p up hu =>
    obtain rfl := Option.some.inj hst
    have hmem : p ∈ l.up := by simp [hu]
    have hpop := h.setLink (n := { l with up }) hl rfl (by simp [hu]) (.refl _)
    cases hi.up k l hl p hmem with
    | regist hc hb =>
      have hbase : p.frame.cmd ∈ baseCmds := by
        rw [hc]
        exact register_base
      simpa [Zone.forward, dests_base hbase] using hpop
    | message hg hc =>
      obtain ⟨hv, hlt, hsent⟩ := h.up k l hl p hmem
      refine handAll (by simp [hv]) _ (hi.popUp hl hu) hpop ⟨_, hg⟩ (fun d hd => hd)
        (dests_keys (hpop.sets l.router) p.frame) ?_
      refine ⟨hlt, hsent, ?_, ?_⟩
      · intro k₀ l₀ hv₀ hl₀ q hq
        obtain rfl : k = k₀ := Option.some.inj (hv.symm.trans hv₀)
        rcases setLink_back hl₀ with ⟨-, rfl⟩ | ⟨hne, -⟩
        · have hsorted := h.upSorted k l hl
          rw [hu] at hsorted
          exact (List.pairwise_cons.mp hsorted).1 q hq
        · exact absurd rfl hne
      · rintro k' l' hl' - q hq hvq
        rcases setLink_back hl' with ⟨rfl, rfl⟩ | ⟨-, hl'⟩
        · exact h.behind k' l hl q hq k' l (hvq.trans hv) hl p hmem
        · exact h.behind k' l' hl' q hq k l (hvq.trans hv) hl p hmem

theorem stepRegister [DecidableEq κ] (hi : Inv c z) (h : Ord sent z) {k : Nat} {transId len : UInt32}
    {z' : Zone ι κ} (hst : z.stepRegister k transId len = some z') : ∃ sent, Ord sent z' := by
  obtain ⟨l, fd, p, up, zone, rsp, hl, -, hu, -, hno, hvia, -, rfl⟩ := hi.register_eq hst
  have hsets := setsOk_onRegister (h.sets l.router) (hi.keyed l.router) fd (i32 (c l.server).serverType.toNat)
    (i32_i32 (c l.server).instanceId.toNat) zone
  generalize (z.router l.router).onRegister fd _ _ zone = r at hsets ⊢
  have hz := ((h.fresh rsp).setRouter (j := l.router) hsets).setLink (n := { l with up }) hl rfl (by simp [hu]) (.refl _)
  have hdown := hz.pushDown (l := { l with up }) (p := rsp) (Function.update_self ..)
    (by rw [hno]; exact Nat.lt_succ_self _) (by rw [hno, Function.update_self]) (by simp [hvia]) ?_
  · refine ⟨Function.update sent z.next rsp, ?_⟩
    simpa [Zone.setLink, Link.pushDown, Zone.setRouter] using hdown
  · rintro k' l' hl' - q hq -
    rw [hno]
    rcases setLink_back hl' with ⟨rfl, rfl⟩ | ⟨-, hl'⟩
    · exact (h.come k' l hl q hq).1
    · exact (h.come k' l' hl' q hq).1

theorem connect (h : Ord sent z) (i : ι) (j : κ) : Ord sent
    { z with link := Function.update z.link z.linkTop (some ⟨i, j, .before, .before, [], []⟩), linkTop := z.linkTop + 1 } := by
  have hlink : ∀ k l, z.link k = some l →
      Function.update z.link z.linkTop (some ⟨i, j, .before, .before, [], []⟩) k = some l := by
    intro k l hl
    rw [Function.update_of_ne (Nat.ne_of_lt (h.top k l hl)), hl]
  -- nothing has come over the new connection
  have hempty : line z.trace z.linkTop (⟨i, j, .before, .before, [], []⟩ : Link ι κ) = [] := by
    simp only [line, takenOver, List.append_nil, List.filterMap_eq_nil_iff]
    intro x hx
    cases hm : x.took with
    | none => rfl
    | some m =>
      obtain ⟨l, hl, -⟩ := h.took i x hx m.1 m.2 hm
      have hne := Nat.ne_of_lt (h.top m.1 l hl)
      simp [hne]
  have hback : ∀ k l, Function.update z.link z.linkTop (some ⟨i, j, .before, .before, [], []⟩) k = some l →
      (k = z.linkTop ∧ l.up = [] ∧ line z.trace k l = []) ∨ z.link k = some l := by
    intro k l hl
    by_cases hk : k = z.linkTop
    · subst hk
      obtain rfl : ⟨i, j, .before, .before, [], []⟩ = l := by simpa using hl
      exact .inl ⟨rfl, rfl, hempty⟩
    · exact .inr (by simpa [hk] using hl)
  refine ⟨?_, h.gaveSorted, ?_, ?_, ?_, ?_, ?_, ?_, ?_, ?_, h.sets⟩
  · intro i' p hp
    obtain ⟨hlt, k, l, hv, hl, hs⟩ := h.gave i' p hp
    exact ⟨hlt, k, l, hv, hlink k l hl, hs⟩
  · intro i' x hx k p hp
    obtain ⟨l, hl, hs⟩ := h.took i' x hx k p hp
    exact ⟨l, hlink k l hl, hs⟩
  · intro k l hl
    rcases hback k l hl with ⟨rfl, -, -⟩ | hl
    · exact Nat.lt_succ_self _
    · exact Nat.lt_succ_of_lt (h.top k l hl)
  · intro k l hl p hp
    rcases hback k l hl with ⟨-, hu, -⟩ | hl
    · simp [hu] at hp
    · exact h.up k l hl p hp
  · intro k l hl
    rcases hback k l hl with ⟨-, hu, -⟩ | hl
    · simp [hu]
    · exact h.upSorted k l hl
  · intro k l hl p hp
    rcases hback k l hl with ⟨-, -, hn⟩ | hl
    · simp [hn] at hp
    · exact h.come k l hl p hp
  · intro k l hl p hp k₀ l₀ hv hl₀ q hq
    rcases hback k l hl with ⟨-, -, hn⟩ | hl
    · simp [hn] at hp
    · rcases hback k₀ l₀ hl₀ with ⟨-, hu, -⟩ | hl₀
      · simp [hu] at hq
      · exact h.behind k l hl p hp k₀ l₀ hv hl₀ q hq
  · intro k l hl
    rcases hback k l hl with ⟨-, -, hn⟩ | hl
    · simp [hn]
    · exact h.lineSorted k l hl
  · intro k l k' l' hl hl' he p hp hp'
    rcases hback k l hl with ⟨-, -, hn⟩ | hl
    · simp [hn] at hp
    · rcases hback k' l' hl' with ⟨-, -, hn⟩ | hl'
      · simp [hn] at hp'
      · exact h.once k l k' l' hl hl' he p hp hp'

theorem step [DecidableEq ι] [DecidableEq κ] (hi : Inv c z) (h : Ord sent z) {op : Op ι κ} {z' : Zone ι κ}
    (hst : z.step op = some z') : ∃ sent, Ord sent z' := by
  cases op with
  | app i e data => exact h.stepApp hi hst
  | regist i p fd len => exact h.stepRegist hi hst
  | deliver k target => exact ⟨sent, h.stepDeliver hst⟩
  | route k => exact ⟨sent, h.stepRoute hi hst⟩
  | register k transId len => exact h.stepRegister hi hst
  | connect i j =>
    obtain rfl := Option.some.inj hst
    exact ⟨sent, h.connect i j⟩
  | appIn k fd =>
    obtain ⟨l, hl, hst⟩ := Option.bind_eq_some_iff.mp hst
    dsimp only at hst
    split at hst
    · obtain rfl := Option.some.inj hst
      exact ⟨sent, (h.setLink (n := { l with appSide := .between fd }) hl rfl (.refl _) (.refl _)).withAppTable _⟩
    · cases hst
  | routerIn k fd =>
    obtain ⟨l, hl, hst⟩ := Option.bind_eq_some_iff.mp hst
    dsimp only at hst
    split at hst
    · obtain ⟨-, hst⟩ := Option.ite_none_right_eq_some.mp hst
      obtain rfl := Option.some.inj hst
      exact ⟨sent, (h.setLink (n := { l with routerSide := .between fd }) hl rfl (.refl _) (.refl _)).setRouter
        (h.sets l.router)⟩
    · cases hst
  | appOut k =>
    obtain ⟨l, hl, hst⟩ := Option.bind_eq_some_iff.mp hst
    obtain ⟨fd, -, hst⟩ := Option.bind_eq_some_iff.mp hst
    obtain rfl := Option.some.inj hst
    exact ⟨sent, (h.setLink (n := { l with appSide := .after }) hl rfl (.refl _) (.refl _)).withAppTable _⟩
  | routerOut k handled =>
    obtain ⟨l, hl, hst⟩ := Option.bind_eq_some_iff.mp hst
    obtain ⟨fd, -, hst⟩ := Option.bind_eq_some_iff.mp hst
    obtain rfl := Option.some.inj hst
    refine ⟨sent, (h.setLink (n := { l with routerSide := .after }) hl rfl (.refl _) (.refl _)).setRouter ?_⟩
    unfold Router.out
    split
    · exact h.sets l.router
    · cases handled
      · exact h.sets l.router
      · exact (h.sets l.router).logout fd
  | loseUp k n =>
    obtain ⟨l, hl, rfl⟩ := Option.map_eq_some_iff.mp hst
    exact ⟨sent, h.setLink hl rfl (List.eraseIdx_sublist ..) (.refl _)⟩
  | loseDown k n =>
    obtain ⟨l, hl, rfl⟩ := Option.map_eq_some_iff.mp hst
    exact ⟨sent, h.setLink hl rfl (.refl _) (List.eraseIdx_sublist ..)⟩

theorem init (c : ι → App.Config) (routers : κ → Router) (sent : Nat → Packet) : Ord sent (Zone.init c routers) where
  gave := by simp [Zone.init]
  gaveSorted := by simp [Zone.init]
  took := by simp [Zone.init]
  top := by simp [Zone.init]
  up := by simp [Zone.init]
  upSorted := by simp [Zone.init]
  come := by simp [Zone.init]
  behind := by simp [Zone.init]
  lineSorted := by simp [Zone.init]
  once := by simp [Zone.init]
  sets := by simp [Zone.init, SeverInstanceMgr.init, SetsOk, OrdMap.sorted_nil]

end Ord

theorem run_ord [DecidableEq ι] [DecidableEq κ] {routers : κ → Router} {t : List (Op ι κ)} (h : Run c routers t z) :
    ∃ sent, Ord sent z := by
  refine (h.invariant (fun _ z => Inv c z ∧ ∃ sent, Ord sent z) ⟨.init c routers, fun _ => ⟨0, none, {}, .bytes []⟩, .init ..⟩ ?_).2
  rintro t z op z' - ⟨hi, sent, ho⟩ ha hst
  exact ⟨hi.step ha hst, ho.step hi hst⟩

theorem pair_takenOver {t : List Entry} {x y : Entry} (h : [x, y].Sublist t) {k : Nat} {p q : Packet}
    (hx : x.took = some (k, p)) (hy : y.took = some (k, q)) : [p, q].Sublist (takenOver t k) := by
  have := h.filterMap fun x => x.took.bind fun m => if m.1 = k then some m.2 else none
  simpa [takenOver, hx, hy] using this

theorem mem_takenOver {t : List Entry} {k : Nat} {p : Packet} : p ∈ takenOver t k ↔ ∃ x ∈ t, x.took = some (k, p) := by
  simp only [takenOver, List.mem_filterMap, Option.bind_eq_some_iff, Option.ite_none_right_eq_some, Option.some.injEq,
    Prod.exists]
  constructor
  · rintro ⟨x, hx, k', p', ht, rfl, rfl⟩
    exact ⟨x, hx, ht⟩
  · rintro ⟨x, hx, ht⟩
    exact ⟨x, hx, k, p, ht, rfl, rfl⟩

end GlobalServer.Zone
