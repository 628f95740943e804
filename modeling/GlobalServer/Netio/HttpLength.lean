import GlobalServer.Netio.HttpMessage

/-!
# The length of a body

With the first bytes behind the head `_ParseBody` looks for Content-Length,
converts it and copies by it. The comparison of a header line forgives a
difference at the colon, leaves out lines too short for a blank, and the
characters of the number are copied without regard to their count and sign.
-/

namespace GlobalServer.Http

open Bytes (Fault)
open HttpBaseMsg Decimal

/-! ## What the check looks at -/

/-- A line of the head, as `NextHeader` gives it. -/
def headerLine (data : List UInt8) (iter : StrPos) : List UInt8 := (data.drop iter.beg).take (iter.fin - iter.beg - 2)

/-- `_CheckContentLen` takes the number from this line. -/
def taken (data : List UInt8) (iter : StrPos) : Bool :=
  18 ≤ iter.fin - iter.beg && (lineLen (data.drop iter.beg)).isSome

/-- "Content-Length:" -/
def NAME : List UInt8 := constr.take 15

def named (data : List UInt8) (iter : StrPos) : Bool := NAME.isPrefixOf (headerLine data iter)

/-- What is left of a call of Parse: where it has looked for the length, it has taken it from the line it should, and it
is not negative. -/
def LengthRead (s s' : HttpBaseMsg) : Prop :=
  s.bodysize = -1 → s'.bodysize ≠ -1 →
    s'.headerVec.find? (taken s'.buffer) = s'.headerVec.find? (named s'.buffer) ∧ 0 ≤ s'.bodysize

/-- Parse is called on the chunks in order, stays in its buffers, uses no more than it is given, and reads the length. -/
def HttpMsgType.Handled (k : HttpMsgType) : HttpBaseMsg → List (List UInt8) → Prop
  | _, [] => True
  | s, c :: cs => ∃ s' n, k.parse s c = .ok (s', n) ∧ n ≤ c.length ∧ LengthRead s s' ∧ k.Handled s' cs

/-! ## Lines -/

/-- The line is long enough for a number, and differs from "Content-Length" in none of its letters. -/
def Taken (l : List UInt8) : Prop := 16 ≤ l.length ∧ l.take 14 = constr.take 14

instance (l : List UInt8) : Decidable (Taken l) := inferInstanceAs (Decidable (_ ∧ _))

def Named (l : List UInt8) : Prop := NAME <+: l

instance (l : List UInt8) : Decidable (Named l) := inferInstanceAs (Decidable (_ <+: _))

def lengthValue (l : List UInt8) : List UInt8 := (l.drop 16).takeWhile (· ≠ CR)

/-- The number fits into the copy that is made of it, and is not negative. -/
def Fits (v : List UInt8) : Prop := (v.length ≤ 10 ∨ (v.length = 11 ∧ stops v)) ∧ 0 ≤ atoi v

instance (v : List UInt8) : Decidable (Fits v) := inferInstanceAs (Decidable (_ ∧ _))

/-- The first line that is a Content-Length or is taken for one is both, and its number fits. -/
def LengthMeets (lines : List (List UInt8)) : Prop :=
  ∀ l, lines.find? (fun l => Taken l ∨ Named l) = some l → Taken l ∧ Named l ∧ Fits (lengthValue l)

section
variable {α β : Type}

theorem find?_cons_eq_iff (p q : α → Bool) (a : α) (l : List α) :
    (a :: l).find? p = (a :: l).find? q ↔ if p a || q a then p a ∧ q a else l.find? p = l.find? q := by
  cases hp : p a <;> cases hq : q a
  · simp [hp, hq]
  · have hne : l.find? p ≠ some a := fun h => by simpa [hp] using List.find?_some h
    simpa [List.find?_cons, hp, hq] using hne
  · have hne : some a ≠ l.find? q := fun h => by simpa [hq] using List.find?_some h.symm
    simpa [List.find?_cons, hp, hq] using hne
  · simp [hp, hq]

theorem find?_eq_find?_iff (p q : α → Bool) (l : List α) :
    l.find? p = l.find? q ↔ ∀ a, l.find? (fun a => p a || q a) = some a → p a ∧ q a := by
  induction l with
  | nil => simp
  | cons a l ih =>
    rw [find?_cons_eq_iff, ih]
    cases h : p a || q a <;> simp [h]

theorem forall₂_find?_iff {R : α → β → Prop} {p p' : α → Bool} {q q' : β → Bool} {l : List α} {m : List β}
    (h : List.Forall₂ R l m) (hpq : ∀ a b, R a b → p a = q b ∧ p' a = q' b) :
    l.find? p = l.find? p' ↔ m.find? q = m.find? q' := by
  induction h with
  | nil => simp
  | cons hab _ ih =>
    obtain ⟨hp, hp'⟩ := hpq _ _ hab
    rw [find?_cons_eq_iff, find?_cons_eq_iff, ih, hp, hp']

theorem find?_or_of_eq {p q : α → Bool} {l : List α} (h : l.find? p = l.find? q) :
    l.find? (fun a => p a || q a) = l.find? p := by
  induction l with
  | nil => rfl
  | cons a l ih =>
    cases hp : p a <;> cases hq : q a <;> simp only [List.find?_cons, hp, hq] at h ⊢
    · exact ih h
    · exact h.symm
    · rfl
    · rfl

end

theorem contentLen_eq (lines : List (List UInt8)) :
    contentLen lines = match lines.find? (fun l => Taken l) with
      | some l => readLen (lengthValue l)
      | none => .ok 0 := by
  induction lines with
  | nil => rfl
  | cons l lines ih =>
    by_cases h : Taken l
    · rw [contentLen, if_pos (show 16 ≤ l.length ∧ l.take 14 = constr.take 14 from h),
        List.find?_cons_of_pos (by simpa using h)]
      rfl
    · rw [contentLen, if_neg (show ¬ (16 ≤ l.length ∧ l.take 14 = constr.take 14) from h),
        List.find?_cons_of_neg (by simpa using h), ih]

theorem fits_iff (v : List UInt8) : Fits v ↔ ∃ len, readLen v = .ok len ∧ 0 ≤ len := by
  unfold Fits readLen
  split
  · rename_i h
    simp [h]
  · rename_i h
    simp [h]

theorem lengthMeets_iff (lines : List (List UInt8)) : LengthMeets lines ↔
    lines.find? (fun l => Taken l) = lines.find? (fun l => Named l) ∧ ∃ len, contentLen lines = .ok len ∧ 0 ≤ len := by
  have heq := find?_eq_find?_iff (fun l => decide (Taken l)) (fun l => decide (Named l)) lines
  simp only [decide_eq_true_eq, ← Bool.decide_or] at heq
  constructor
  · intro h
    have hf := heq.mpr fun l hl => ⟨(h l hl).1, (h l hl).2.1⟩
    have hor := find?_or_of_eq hf
    simp only [← Bool.decide_or] at hor
    refine ⟨hf, ?_⟩
    rw [contentLen_eq]
    cases ht : lines.find? (fun l => Taken l) with
    | none => exact ⟨0, rfl, le_rfl⟩
    | some l => exact (fits_iff _).mp (h l (hor.trans ht)).2.2
  · rintro ⟨hf, hlen⟩ l hl
    obtain ⟨ht, hn⟩ := heq.mp hf l hl
    have hor := find?_or_of_eq hf
    simp only [← Bool.decide_or] at hor
    rw [contentLen_eq, ← hor, hl] at hlen
    exact ⟨ht, hn, (fits_iff _).mpr hlen⟩

theorem contentLen_announced {lines : List (List UInt8)} (h : ∀ l ∈ lines, ¬ Taken l) {n : Nat} (hn : n < 2 ^ 31) :
    contentLen (lines ++ [constr ++ ofNat n]) = .ok n := by
  have hnone : lines.find? (fun l => Taken l) = none := by simpa using h
  have hdigits := ofNat_ne_nil n
  have htaken : Taken (constr ++ ofNat n) := by
    refine ⟨?_, ?_⟩
    · rw [List.length_append]
      exact Nat.le_add_right_of_le (by decide)
    · rw [List.take_append_of_le_length (by decide)]
  have hvalue : lengthValue (constr ++ ofNat n) = ofNat n := by
    rw [lengthValue, List.drop_left' (by decide), List.takeWhile_eq_self_iff]
    intro b hb
    have hd := isDigit_of_mem_ofNat hb
    have hne : b ≠ CR := fun h => by
      rw [h] at hd
      exact absurd hd (by decide)
    simpa using hne
  have hlen : (ofNat n).length ≤ 10 := by
    rw [ofNat, List.length_map, Nat.length_toDigits_le_iff (by decide) (by decide)]
    omega
  rw [contentLen_eq, List.find?_append, hnone, Option.none_or, List.find?_cons_of_pos (by simpa using htaken)]
  dsimp only
  rw [hvalue, readLen, if_pos (.inl hlen), atoi_ofNat hn]

/-! ## From the lines to their places -/

theorem headerLine_eq {data l : List UInt8} {iter : StrPos} (hlen : iter.fin - iter.beg = l.length + 2)
    (h : withCRLF l <+: data.drop iter.beg) : headerLine data iter = l := by
  obtain ⟨x, hx⟩ := h
  rw [headerLine, hlen, ← hx, withCRLF, List.append_assoc, Nat.add_sub_cancel, List.take_left]

theorem taken_eq {data l : List UInt8} {iter : StrPos} (hlen : iter.fin - iter.beg = l.length + 2)
    (h : withCRLF l <+: data.drop iter.beg) : taken data iter = decide (Taken l) := by
  obtain ⟨x, hx⟩ := h
  rw [taken, hlen, ← hx]
  by_cases hl : 16 ≤ l.length
  · rw [lineLen_line hl]
    by_cases h14 : l.take 14 = constr.take 14
    · simp [Taken, hl, h14]
    · simp [Taken, h14]
  · simp [Taken, hl]

theorem Lists.find?_iff {buffer : List UInt8} {vec : List StrPos} {lines : List (List UInt8)}
    (h : Lists buffer vec lines) : vec.find? (taken buffer) = vec.find? (named buffer) ↔
      lines.find? (fun l => Taken l) = lines.find? (fun l => Named l) := by
  refine forall₂_find?_iff h fun p l ⟨hlen, hx⟩ => ⟨taken_eq hlen hx, ?_⟩
  rw [named, headerLine_eq hlen hx, Bool.eq_iff_iff, List.isPrefixOf_iff_prefix, decide_eq_true_eq]
  rfl

theorem find?_concat_nil (lines : List (List UInt8)) :
    (lines ++ [[]]).find? (fun l => Taken l) = (lines ++ [[]]).find? (fun l => Named l) ↔
      lines.find? (fun l => Taken l) = lines.find? (fun l => Named l) := by
  have ht : [[]].find? (fun l => decide (Taken l)) = none := by decide
  have hn : [[]].find? (fun l => decide (Named l)) = none := by decide
  rw [List.find?_append, List.find?_append, ht, hn, Option.or_none, Option.or_none]

/-! ## Calls -/

namespace HttpMsgType

variable (k : HttpMsgType)

theorem handled_over {s : HttpBaseMsg} (hs : s.flag = .E_PARSE_OVER) (cs : List (List UInt8)) : k.Handled s cs := by
  induction cs with
  | nil => trivial
  | cons c cs ih => exact ⟨s, 0, k.parse_of_over hs c, Nat.zero_le _, fun h₁ h₂ => absurd h₁ h₂, ih⟩

theorem handled_inBody (s : HttpBaseMsg) {len : Int} {r : List UInt8} (hlen : len < 2 ^ 31) (h₀ : 0 ≤ len)
    (hr : (r.length : Int) ≤ len) (cs : List (List UInt8)) : k.Handled (s.inBody len r) cs := by
  induction cs generalizing r with
  | nil => trivial
  | cons c cs ih =>
    have hsize : LengthRead (s.inBody len r) (s.inBody len r) := fun h₁ h₂ => absurd h₁ h₂
    by_cases hover : (r.length : Int) = len
    · exact k.handled_over (if_pos hover) _
    · have hflag : (s.inBody len r).flag = .E_PARSE_BODY := if_neg hover
      by_cases hc : c = []
      · exact ⟨_, 0, by rw [hc, k.parse_nil (.inr hflag)], Nat.zero_le _, hsize, ih hr⟩
      · obtain ⟨n, hn⟩ : ∃ n : Nat, (r.length + n : Int) = len := ⟨(len - r.length).toNat, by omega⟩
        refine ⟨_, _, (k.parse_of_body hflag c).trans (parseBody_inBody s hlen hn (by omega) hc), min_le_right _ _,
          fun h => ?_, ih ?_⟩
        · rw [show (s.inBody len r).bodysize = len from rfl] at h
          omega
        · rw [List.length_append, List.length_take]
          omega

theorem handled_cons_iff {s s' : HttpBaseMsg} {c : List UInt8} {n : Nat} {cs : List (List UInt8)}
    (hp : k.parse s c = .ok (s', n)) (hn : n ≤ c.length) (hs' : k.Handled s' cs) :
    k.Handled s (c :: cs) ↔ LengthRead s s' := by
  refine ⟨fun ⟨t, m, ht, _, hr, _⟩ => ?_, fun h => ⟨s', n, hp, hn, h, hs'⟩⟩
  rw [hp] at ht
  cases ht
  exact hr

theorem handled_behind {h : Head} {t : HttpBaseMsg} (ht : h.Read t) {s : HttpBaseMsg} (hs : s.bodysize = -1)
    {c r : List UInt8} (hr : r ≠ []) (hle : r.length ≤ c.length)
    (hp : k.parse s c = Parsed.after (c.length - r.length) (t.parseBody r)) (cs : List (List UInt8)) :
    k.Handled s (c :: cs) ↔ LengthMeets h.headers := by
  rw [parseBody_behind ht.bodysize ht.flag hr, ht.checkContentLen] at hp
  have hfind : ∀ x, ((h.headers.find? fun l => Taken l) = h.headers.find? fun l => Named l) ↔
      t.headerVec.find? (taken (t.buffer ++ x)) = t.headerVec.find? (named (t.buffer ++ x)) :=
    fun x => (find?_concat_nil h.headers).symm.trans (ht.lists.append x).find?_iff.symm
  have hsplit := lengthMeets_iff h.headers
  cases hc : contentLen h.headers with
  | error e =>
    rw [hc] at hp hsplit
    refine ⟨fun ⟨s', n, hok, _⟩ => ?_, fun hm => ?_⟩
    · rw [hp] at hok
      cases hok
    · obtain ⟨-, len, hlen, -⟩ := hsplit.mp hm
      cases hlen
  | ok len =>
    have hrange := checkLines_range (hc ▸ ht.checkContentLen)
    rw [hc, Except.ok_bind] at hp
    rw [hsplit, hc]
    simp only [Except.ok.injEq, exists_eq_left']
    rcases lt_trichotomy len 0 with hneg | rfl | hpos
    · rw [if_neg hneg.ne, if_pos hneg, Parsed.after_error] at hp
      refine ⟨fun ⟨s', n, hok, _⟩ => ?_, fun hm => absurd hm.2 (by omega)⟩
      rw [hp] at hok
      cases hok
    · rw [if_pos rfl, Parsed.after_ok] at hp
      rw [k.handled_cons_iff hp (by omega) (k.handled_over rfl cs), hfind [], List.append_nil]
      exact ⟨fun h => h hs (show (0 : Int) ≠ -1 by decide), fun h _ _ => h⟩
    · rw [if_neg hpos.ne', if_neg (by omega), Parsed.after_ok] at hp
      have htake : ((r.take len.toNat).length : Int) ≤ len := by
        rw [List.length_take]
        omega
      have hsize : (t.inBody len (r.take len.toNat)).bodysize ≠ -1 := show len ≠ -1 by omega
      rw [k.handled_cons_iff hp (by omega) (k.handled_inBody t hrange.2 hpos.le htake cs), hfind (r.take len.toNat)]
      exact ⟨fun h => h hs hsize, fun h _ _ => h⟩

theorem handled_of_head (h : Head) {body u : List UInt8} {s : HttpBaseMsg} (hu : k.eatAll k.clear u = (s, []))
    {cs : List (List UInt8)} (hw : u ++ cs.flatten <+: h.bytes ++ body) :
    k.Handled s cs ↔ (h.bytes.length < (u ++ cs.flatten).length → LengthMeets h.headers) := by
  induction cs generalizing u s with
  | nil =>
    rw [List.flatten_nil, List.append_nil] at hw ⊢
    have hpre := h.eatAll_prefix k hw
    rw [hu] at hpre
    have hle : u.length ≤ h.bytes.length := by
      by_contra hlt
      rw [if_neg hlt] at hpre
      exact hpre.2.2 rfl
    exact ⟨fun _ hlt => absurd hlt (by omega), fun _ => trivial⟩
  | cons c cs ih =>
    rw [List.flatten_cons, ← List.append_assoc] at hw ⊢
    have hkeeps := k.eatAll_keeps (.inl k.inHead_clear) u
    rw [hu, k.bodysize_clear] at hkeeps
    obtain ⟨hs, hsize, -⟩ := hkeeps
    have hnext := k.eatAll_append k.clear u c
    rw [hu, if_pos rfl] at hnext
    have hpre := h.eatAll_prefix k ((List.prefix_append _ _).trans hw)
    rw [hnext] at hpre
    have hparse := k.parse_eatAll s c
    obtain ⟨hs', hsize', -⟩ := k.eatAll_keeps hs c
    split at hpre
    · rename_i hle
      rw [hpre, k.parse_nil hs', Parsed.after_ok] at hparse
      rw [← ih (hnext.trans (Prod.ext rfl hpre)) hw]
      refine ⟨fun ⟨t, n, ht, _, _, hh⟩ => ?_, fun hh => ⟨_, _, hparse, by simp, fun h₁ h₂ => ?_, hh⟩⟩
      · rw [hparse] at ht
        cases ht
        exact hh
      · exact absurd (hsize'.trans h₁) h₂
    · rename_i hlt
      obtain ⟨ht, hr, hne⟩ := hpre
      rw [k.parse_of_body ht.flag] at hparse
      rw [k.handled_behind ht hsize hne (k.eatAll_length s c) hparse]
      refine ⟨fun hm _ => hm, fun hm => hm ?_⟩
      rw [List.length_append]
      omega

end HttpMsgType

/-! ## Every stream begins with a head -/

theorem exists_line (w : List UInt8) : NoBreak w ∨ ∃ l x, NoBreak l ∧ w = withCRLF l ++ x := by
  induction w with
  | nil => exact .inl (by decide)
  | cons b w ih =>
    by_cases hb : ∃ x, b :: w = CR :: LF :: x
    · obtain ⟨x, hx⟩ := hb
      exact .inr ⟨[], x, by decide, hx⟩
    · have hcons : ∀ l, (∃ x, w = l ++ x) → NoBreak l → NoBreak (b :: l) := by
        rintro l ⟨x, rfl⟩ hl hin
        rcases List.infix_cons_iff.mp hin with ⟨t, ht⟩ | hin
        · exact hb ⟨t ++ x, congrArg (· ++ x) ht.symm⟩
        · exact hl hin
      rcases ih with hw | ⟨l, x, hl, rfl⟩
      · exact .inl (hcons w ⟨[], (List.append_nil w).symm⟩ hw)
      · exact .inr ⟨b :: l, x, hcons l ⟨CR :: LF :: x, by simp [withCRLF]⟩ hl, rfl⟩

theorem exists_lines (w : List UInt8) : ∃ lines : List (List UInt8), ∃ body, (∀ l ∈ lines, l ≠ [] ∧ NoBreak l) ∧
    w <+: (lines.map withCRLF).flatten ++ withCRLF [] ++ body := by
  induction hn : w.length using Nat.strong_induction_on generalizing w with
  | _ n ih =>
    rcases exists_line w with hw | ⟨l, x, hl, rfl⟩
    · by_cases hne : w = []
      · exact ⟨[], [], by simp, by simp [hne]⟩
      · refine ⟨[w], [], by simpa using ⟨hne, hw⟩, ?_⟩
        simp [withCRLF]
    · by_cases hne : l = []
      · exact ⟨[], x, by simp, by simp [hne]⟩
      · obtain ⟨lines, body, hlines, hx⟩ := ih x.length (by rw [← hn]; simp [withCRLF]; omega) x rfl
        refine ⟨l :: lines, body, ?_, ?_⟩
        · simpa using ⟨⟨hne, hl⟩, hlines⟩
        · simpa using hx

theorem exists_head (w : List UInt8) : ∃ (h : Head) (body : List UInt8), w <+: h.bytes ++ body := by
  by_cases hw : SP ∈ w
  · obtain ⟨first, w, rfl, hfirst⟩ := List.eq_append_cons_of_mem hw
    by_cases hw : SP ∈ w
    · obtain ⟨second, w, rfl, hsecond⟩ := List.eq_append_cons_of_mem hw
      rcases exists_line w with hw | ⟨third, w, hthird, rfl⟩
      · refine ⟨⟨first, second, w, [], hfirst, hsecond, hw, by simp⟩, [], ?_⟩
        simp [Head.bytes, Head.startLine, withCRLF]
      · obtain ⟨lines, body, hlines, hx⟩ := exists_lines w
        refine ⟨⟨first, second, third, lines, hfirst, hsecond, hthird, hlines⟩, body, ?_⟩
        simpa [Head.bytes, Head.startLine] using hx
    · refine ⟨⟨first, w, [], [], hfirst, hw, by decide, by simp⟩, [], ?_⟩
      simp [Head.bytes, Head.startLine]
  · exact ⟨⟨w, [], [], [], hw, by simp, by decide, by simp⟩, [], by simp [Head.bytes, Head.startLine]⟩

/-- A request with a negative length. -/
def negative : Head :=
  { post.toHead with headers := ["Content-Length: -5".toList.map Char.toUInt8], header_line := by decide }

end GlobalServer.Http
