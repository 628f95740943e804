import GlobalServer.Socket.IoService
import Mathlib.Data.List.Perm.Basic
import Mathlib.Data.List.Nodup

/-!
# Close requests and events of the io service

Over every run of any threads, as long as no number is given to two epolls: a
close request goes to the loop of its socket, at most one for each descriptor, and until it is carried out the socket keeps
that descriptor. A loop closes nothing while it has a batch of events, so each
event it executes is about a descriptor that is still open and still the one
that was reported.
-/

namespace GlobalServer.IoService

variable {η : Type}

/-- The requests that a loop is to carry out in this turn. -/
def Phase.reqs : Phase η → List (SocketClose η)
  | .closing closereqs => closereqs
  | .handling _ closereqs => closereqs
  | _ => []

def Phase.items : Phase η → List Item
  | .batch items _ => items
  | _ => []

def Phase.handlingOf : Phase η → Option (SocketClose η)
  | .handling cls _ => some cls
  | _ => none

/-- Whether the thread is in `_DoRun`. -/
def Phase.Running : Phase η → Prop
  | .idle => False
  | .released => False
  | _ => True

def SocketClose.key (cls : SocketClose η) : Nat × Nat := (cls.impl, cls.gen)

/-- What later steps leave of a core that has a descriptor. -/
structure Core.Keeps (c c' : Core) : Prop where
  gen : c'.gen = c.gen
  fd : c'.fd = c.fd
  closeFlag : c.closeFlag = true → c'.closeFlag = true
  registered : c.registered = true → c'.registered = true
  epoll : ∀ h, c.epoll = some h → c'.epoll = some h

/-- What any step leaves of a core: a descriptor that is gone does not come back, nor does a request that was made. -/
structure Core.Ages (c c' : Core) : Prop where
  same : c.gen < c'.gen ∨ c'.gen = c.gen ∧ (c.fd = none → c'.fd = none) ∧
    (c.closeFlag = true → c'.closeFlag = true ∨ c'.fd = none)

theorem Core.Keeps.refl (c : Core) : c.Keeps c := ⟨rfl, rfl, id, id, fun _ => id⟩

theorem Core.Keeps.ages {c c' : Core} (h : c.Keeps c') : c.Ages c' :=
  ⟨.inr ⟨h.gen, fun hf => h.fd.trans hf, fun hc => .inl (h.closeFlag hc)⟩⟩

namespace State

def postingAt (s : State η) (l : Nat) : List (SocketClose η) :=
  s.posting.filterMap fun p => if p.1 = l then some p.2 else none

/-- The requests that are on their way to be carried out by a loop. -/
def inflight (s : State η) (l : Nat) : List (SocketClose η) :=
  s.postingAt l ++ ((s.impl l).closereqs ++ (s.impl l).phase.reqs)

/-- The socket of a request still has the descriptor, and its loop is `l`. -/
structure Pending (s : State η) (l : Nat) (cls : SocketClose η) : Prop where
  fd : (s.core cls.impl).fd.isSome
  gen : (s.core cls.impl).gen = cls.gen
  closeFlag : (s.core cls.impl).closeFlag = true
  epoll : ∃ h, (s.core cls.impl).epoll = some h ∧ s.implmap h = some l

/-- The descriptor of a request has been closed. -/
def Finished (s : State η) (cls : SocketClose η) : Prop :=
  cls.gen < (s.core cls.impl).gen ∨ cls.gen = (s.core cls.impl).gen ∧ (s.core cls.impl).fd = none

/-- No second request can be made for the descriptor of this one. -/
def Asked (s : State η) (cls : SocketClose η) : Prop :=
  cls.gen < (s.core cls.impl).gen ∨
    cls.gen = (s.core cls.impl).gen ∧ ((s.core cls.impl).closeFlag = true ∨ (s.core cls.impl).fd = none)

/-- The socket of an event has the descriptor that was reported, in the epoll of the loop. -/
def Live (s : State η) (l : Nat) : Item → Prop
  | .event k gen =>
    (s.core k).fd.isSome ∧ (s.core k).gen = gen ∧ (s.core k).registered = true ∧
      ∃ h, (s.core k).epoll = some h ∧ (s.impl l).handler = some h ∧ s.implmap h = some l
  | .finish n => n ∈ (s.impl l).finishes

/-! ## How a loop and its epoll find each other -/

structure Wired (s : State η) : Prop where
  running : ∀ l, (s.impl l).phase.Running → ∃ h, (s.impl l).handler = some h ∧ s.implmap h = some l
  away : ∀ l h, ¬(s.impl l).phase.Running → (s.impl l).handler = some h → s.implmap h = none
  handler_given : ∀ l h, (s.impl l).handler = some h → h ∈ s.given
  implmap_given : ∀ h l, s.implmap h = some l → h ∈ s.given
  handler_inj : ∀ l l' h, (s.impl l).handler = some h → (s.impl l').handler = some h → l = l'

/-! ## The descriptors -/

structure Held (s : State η) : Prop where
  owner : ∀ k fd, (s.core k).fd = some fd → s.fds fd = some k
  block : ∀ k, (s.core k).block = true → (s.core k).destroyed = false → (s.core k).epoll = none
  registered : ∀ k, (s.core k).registered = true → (s.core k).fd.isSome
  pending : ∀ l, ∀ cls ∈ s.inflight l, s.Pending l cls
  nodup : ∀ l, ((s.inflight l).map (·.impl)).Nodup
  items : ∀ l, (s.impl l).phase.items.Nodup
  live : ∀ l, ∀ item ∈ (s.impl l).phase.items, s.Live l item

/-! ## The requests -/

structure Kept (s : State η) : Prop where
  made_nodup : (s.made.map SocketClose.key).Nodup
  asked : ∀ cls ∈ s.made, s.Asked cls
  done_nodup : (s.done.map SocketClose.key).Nodup
  done_made : ∀ cls ∈ s.done, cls ∈ s.made ∧ s.Finished cls
  handling : ∀ l cls, (s.impl l).phase.handlingOf = some cls →
    cls ∈ s.made ∧ s.Finished cls ∧ cls.key ∉ s.done.map SocketClose.key
  handling_inj : ∀ l l' cls cls', (s.impl l).phase.handlingOf = some cls → (s.impl l').phase.handlingOf = some cls' →
    cls.key = cls'.key → l = l'
  inflight_made : ∀ l, ∀ cls ∈ s.inflight l, cls ∈ s.made
  accounted : ∀ cls ∈ s.made, cls ∈ s.done ∨ cls ∈ s.deleted ∨
    ∃ l, cls ∈ s.inflight l ∨ (s.impl l).phase.handlingOf = some cls

/-! ## What a step does to one core -/

@[simp] theorem core_setImpl (s : State η) (l : Nat) (simpl : Impl η) : (s.setImpl l simpl).core = s.core := rfl

@[simp] theorem core_setPhase (s : State η) (l : Nat) (phase : Phase η) : (s.setPhase l phase).core = s.core := rfl

theorem core_setCore (s : State η) (k : Nat) (c : Core) (k' : Nat) :
    (s.setCore k c).core k' = if k' = k then c else s.core k' := by
  simp only [setCore, Function.update_apply]

theorem impl_setImpl (s : State η) (l : Nat) (simpl : Impl η) (l' : Nat) :
    (s.setImpl l simpl).impl l' = if l' = l then simpl else s.impl l' := by
  simp only [setImpl, Function.update_apply]

theorem keeps_setCore {s : State η} {k : Nat} {c : Core} (h : (s.core k).Keeps c) (k' : Nat) :
    (s.core k').Keeps ((s.setCore k c).core k') := by
  rw [core_setCore]
  split
  · next he => rw [he]; exact h
  · exact .refl _

section
variable {s s' : State η} {l : Nat} {cls : SocketClose η}

theorem Pending.mono (h : s.Pending l cls) (hk : (s.core cls.impl).Keeps (s'.core cls.impl))
    (hm : ∀ h l, s.implmap h = some l → s'.implmap h = some l) : s'.Pending l cls := by
  obtain ⟨x, h1, h2⟩ := h.epoll
  exact ⟨by rw [hk.fd]; exact h.fd, hk.gen.trans h.gen, hk.closeFlag h.closeFlag, x, hk.epoll x h1, hm x l h2⟩

theorem Live.mono {item : Item} (h : s.Live l item) (hk : ∀ k, (s.core k).Keeps (s'.core k))
    (hm : ∀ h l, s.implmap h = some l → s'.implmap h = some l) (hh : (s'.impl l).handler = (s.impl l).handler)
    (hf : ∀ n, n ∈ (s.impl l).finishes → n ∈ (s'.impl l).finishes) : s'.Live l item := by
  cases item with
  | finish n => exact hf n h
  | event k gen =>
    obtain ⟨h1, h2, h3, x, h4, h5, h6⟩ := h
    exact ⟨by rw [(hk k).fd]; exact h1, (hk k).gen.trans h2, (hk k).registered h3, x, (hk k).epoll x h4, hh.trans h5,
      hm x l h6⟩

theorem Finished.mono (h : s.Finished cls) (hk : (s.core cls.impl).Ages (s'.core cls.impl)) : s'.Finished cls := by
  rcases hk.same with h1 | ⟨h1, h2, -⟩
  · rcases h with h | ⟨h, -⟩
    · exact .inl (Nat.lt_trans h h1)
    · exact .inl (h ▸ h1)
  · rcases h with h | ⟨h, h3⟩
    · exact .inl (h1 ▸ h)
    · exact .inr ⟨h.trans h1.symm, h2 h3⟩

theorem Asked.mono (h : s.Asked cls) (hk : (s.core cls.impl).Ages (s'.core cls.impl)) : s'.Asked cls := by
  rcases hk.same with h1 | ⟨h1, h2, h3⟩
  · rcases h with h | ⟨h, -⟩
    · exact .inl (Nat.lt_trans h h1)
    · exact .inl (h ▸ h1)
  · rcases h with h | ⟨h, h4⟩
    · exact .inl (h1 ▸ h)
    · refine .inr ⟨h.trans h1.symm, ?_⟩
      rcases h4 with h4 | h4
      · exact h3 h4
      · exact .inr (h2 h4)

end

theorem Pending.not_finished {s : State η} {l : Nat} {cls cls' : SocketClose η} (h : s.Pending l cls)
    (h' : s.Finished cls') (hk : cls.key = cls'.key) : False := by
  obtain ⟨hi, hg⟩ := Prod.mk.inj hk
  rw [Finished, ← hi, ← hg, ← h.gen] at h'
  rcases h' with h' | ⟨-, h'⟩
  · exact Nat.lt_irrefl _ h'
  · have := h.fd
    rw [h'] at this
    cases this

/-! ## Steps that leave every descriptor and request where it is -/

/-- A step that only changes one core, and what the next socket gets. -/
def touch (s : State η) (k : Nat) (c : Core) (idx : Nat) (as : List Nat) : State η :=
  { s.setCore k c with implidx := idx, assigned := as }

theorem touch_self (s : State η) (k : Nat) : s.touch k (s.core k) s.implidx s.assigned = s := by
  unfold touch setCore
  rw [Function.update_eq_self]

theorem touch_touch (s : State η) (k : Nat) (c c' : Core) (idx idx' : Nat) (as as' : List Nat) :
    (s.touch k c idx as).touch k c' idx' as' = s.touch k c' idx' as' := by
  simp only [touch, setCore, Function.update_idem]

theorem touch_core (s : State η) (k : Nat) (c : Core) (idx : Nat) (as : List Nat) : (s.touch k c idx as).core k = c := by
  simp only [touch, setCore, Function.update_self]

theorem assign_core (s : State η) (k : Nat) (hk : (s.core k).epoll = none) :
    ∃ c idx as, s.assign k = s.touch k c idx as ∧ (s.core k).Keeps c ∧ c.block = (s.core k).block := by
  unfold assign
  split
  · exact ⟨s.core k, s.implidx, s.assigned, (s.touch_self k).symm, .refl _, rfl⟩
  · refine ⟨_, _, _, rfl, ⟨rfl, rfl, id, id, ?_⟩, rfl⟩
    intro x hx
    rw [hk] at hx
    cases hx

theorem ctlEpoll_core (s : State η) (k : Nat) (add ok : Bool) :
    ∃ c idx as, (s.ctlEpoll k add ok).1 = s.touch k c idx as ∧ (s.core k).Keeps c ∧ c.block = (s.core k).block := by
  have assigned : ∃ c idx as, (if add ∧ (s.core k).epoll = none then s.assign k else s) = s.touch k c idx as ∧
      (s.core k).Keeps c ∧ c.block = (s.core k).block := by
    split
    · next h => exact s.assign_core k h.2
    · exact ⟨s.core k, s.implidx, s.assigned, (s.touch_self k).symm, .refl _, rfl⟩
  obtain ⟨c, idx, as, he, hk, hb⟩ := assigned
  unfold ctlEpoll
  rw [he]
  dsimp only
  rw [touch_core]
  split
  · refine ⟨{ c with registered := true }, idx, as, touch_touch s k c _ idx idx as as, ?_, hb⟩
    exact ⟨hk.gen, hk.fd, hk.closeFlag, fun _ => rfl, hk.epoll⟩
  · exact ⟨c, idx, as, rfl, hk, hb⟩

/-- An `Async` call leaves the descriptor, and the loop if there is one; its socket blocks no more. -/
theorem async_core (s : State η) (k : Nat) (modifies ok : Bool) : s.async k modifies ok = s ∨
    ∃ c idx as, s.async k modifies ok = s.touch k c idx as ∧ (s.core k).fd.isSome ∧ (s.core k).Keeps c ∧
      c.block = false := by
  unfold async
  dsimp only
  split
  · exact .inl rfl
  next hfd =>
  have hfd : (s.core k).fd.isSome := by
    cases h : (s.core k).fd with
    | none => exact absurd (.inl h) hfd
    | some _ => rfl
  right
  split
  · exact ⟨{ s.core k with block := false }, s.implidx, s.assigned, rfl, hfd, ⟨rfl, rfl, id, id, fun _ => id⟩, rfl⟩
  · obtain ⟨c, idx, as, he, hk, hb⟩ := (s.setCore k { s.core k with block := false, bind := true }).ctlEpoll_core k
      (!(s.core k).bind) ok
    have hs : s.setCore k { s.core k with block := false, bind := true } =
        s.touch k { s.core k with block := false, bind := true } s.implidx s.assigned := rfl
    rw [hs] at he hk hb ⊢
    rw [touch_core] at hk hb
    rw [touch_touch] at he
    have hk' : (s.core k).Keeps c := ⟨hk.gen, hk.fd, hk.closeFlag, hk.registered, hk.epoll⟩
    rw [he]
    split
    · exact ⟨c, idx, as, rfl, hfd, hk', hb⟩
    · refine ⟨{ c with bind := false }, idx, as, ?_, hfd, ⟨hk'.gen, hk'.fd, hk'.closeFlag, hk'.registered, hk'.epoll⟩, hb⟩
      rw [touch_core]
      exact touch_touch s k c _ idx idx as as

theorem Wired.touch {s : State η} (h : Wired s) (k : Nat) (c : Core) (idx : Nat) (as : List Nat) :
    Wired (s.touch k c idx as) := ⟨h.running, h.away, h.handler_given, h.implmap_given, h.handler_inj⟩

theorem Held.touch {s : State η} (h : Held s) {k : Nat} {c : Core} (hk : (s.core k).Keeps c)
    (hb : c.block = true → c.destroyed = false → c.epoll = none) (hr : c.registered = true → c.fd.isSome) (idx : Nat)
    (as : List Nat) : Held (s.touch k c idx as) := by
  have hkeeps : ∀ k', (s.core k').Keeps ((s.touch k c idx as).core k') := keeps_setCore hk
  have hcore : ∀ k', (s.touch k c idx as).core k' = if k' = k then c else s.core k' := s.core_setCore k c
  refine ⟨fun k' fd hf => h.owner k' fd ((hkeeps k').fd.symm.trans hf), ?_, ?_, ?_, h.nodup, h.items, ?_⟩
  · intro k' h1 h2
    rw [hcore] at h1 h2 ⊢
    split at h1
    · next he =>
      rw [if_pos he] at h2 ⊢
      exact hb h1 h2
    · next he =>
      rw [if_neg he] at h2 ⊢
      exact h.block k' h1 h2
  · intro k' h1
    rw [hcore] at h1 ⊢
    split at h1
    · next he => rw [if_pos he]; exact hr h1
    · next he => rw [if_neg he]; exact h.registered k' h1
  · exact fun l cls hc => (h.pending l cls hc).mono (hkeeps _) fun _ _ => id
  · exact fun l item hi => (h.live l item hi).mono hkeeps (fun _ _ => id) rfl fun _ => id

theorem Kept.mono {s s' : State η} (h : Kept s) (hk : ∀ k, (s.core k).Ages (s'.core k)) (hm : s'.made = s.made)
    (hd : s'.done = s.done) (hx : ∀ cls ∈ s.deleted, cls ∈ s'.deleted)
    (hh : ∀ l, (s'.impl l).phase.handlingOf = (s.impl l).phase.handlingOf)
    (hi : ∀ l cls, cls ∈ s'.inflight l → cls ∈ s.inflight l)
    (hi' : ∀ l cls, cls ∈ s.inflight l → cls ∈ s'.inflight l ∨ cls ∈ s'.deleted) : Kept s' := by
  refine ⟨hm ▸ h.made_nodup, ?_, hd ▸ h.done_nodup, ?_, ?_, ?_, ?_, ?_⟩
  · intro cls hc
    exact (h.asked cls (hm ▸ hc)).mono (hk _)
  · intro cls hc
    obtain ⟨h1, h2⟩ := h.done_made cls (hd ▸ hc)
    exact ⟨hm ▸ h1, h2.mono (hk _)⟩
  · intro l cls hc
    obtain ⟨h1, h2, h3⟩ := h.handling l cls (hh l ▸ hc)
    exact ⟨hm ▸ h1, h2.mono (hk _), hd ▸ h3⟩
  · intro l l' cls cls' h1 h2
    exact h.handling_inj l l' cls cls' (hh l ▸ h1) (hh l' ▸ h2)
  · intro l cls hc
    exact hm ▸ h.inflight_made l cls (hi l cls hc)
  · intro cls hc
    rcases h.accounted cls (hm ▸ hc) with h1 | h1 | ⟨l, h1 | h1⟩
    · exact .inl (hd ▸ h1)
    · exact .inr (.inl (hx cls h1))
    · rcases hi' l cls h1 with h2 | h2
      · exact .inr (.inr ⟨l, .inl h2⟩)
      · exact .inr (.inl h2)
    · exact .inr (.inr ⟨l, .inr ((hh l).trans h1)⟩)

theorem Kept.touch {s : State η} (h : Kept s) {k : Nat} {c : Core} (hk : (s.core k).Ages c) (idx : Nat) (as : List Nat) :
    Kept (s.touch k c idx as) := by
  refine h.mono ?_ rfl rfl (fun _ => id) (fun _ => rfl) (fun _ _ => id) fun _ _ => .inl
  intro k'
  rw [show (s.touch k c idx as).core k' = if k' = k then c else s.core k' from s.core_setCore k c k']
  split
  · next he => rw [he]; exact hk
  · exact (Core.Keeps.refl _).ages

/-! ## Steps of one loop -/

/-- A step that moves requests, or drops some, and touches no core. -/
theorem Held.moves {s s' : State η} (h : Held s) (hc : s'.core = s.core) (hf : s'.fds = s.fds)
    (hm : ∀ x l, s.implmap x = some l → s'.implmap x = some l) (hi : ∀ l, (s'.inflight l).Subperm (s.inflight l))
    (hn : ∀ l, (s'.impl l).phase.items.Nodup) (hl : ∀ l, ∀ item ∈ (s'.impl l).phase.items, s'.Live l item) : Held s' := by
  refine ⟨by rw [hc, hf]; exact h.owner, by rw [hc]; exact h.block, by rw [hc]; exact h.registered, ?_, ?_, hn, hl⟩
  · intro l cls hcls
    refine (h.pending l cls ((hi l).subset hcls)).mono ?_ hm
    rw [hc]
    exact .refl _
  · intro l
    obtain ⟨m, hperm, hsub⟩ := hi l
    rw [← (hperm.map _).nodup_iff]
    exact (h.nodup l).sublist (hsub.map _)

theorem Held.setImpl {s : State η} (h : Held s) {l : Nat} {simpl : Impl η}
    (hi : (simpl.closereqs ++ simpl.phase.reqs).Subperm ((s.impl l).closereqs ++ (s.impl l).phase.reqs))
    (hn : simpl.phase.items.Nodup) (hl : ∀ item ∈ simpl.phase.items, (s.setImpl l simpl).Live l item) :
    Held (s.setImpl l simpl) := by
  refine h.moves rfl rfl (fun _ _ => id) ?_ ?_ ?_
  · intro l'
    rw [inflight, inflight, impl_setImpl]
    split
    · next he => rw [he]; exact (List.subperm_append_left _).mpr hi
    · exact .refl _
  · intro l'
    rw [impl_setImpl]
    split
    · exact hn
    · exact h.items l'
  · intro l' item hitem
    rw [impl_setImpl] at hitem
    split at hitem
    · next he => rw [he]; exact hl item hitem
    · next he =>
      refine (h.live l' item hitem).mono (fun _ => .refl _) (fun _ _ => id) ?_ ?_
      · rw [impl_setImpl, if_neg he]
      · intro n
        rw [impl_setImpl, if_neg he]
        exact id

theorem Wired.setImpl {s : State η} (h : Wired s) {l : Nat} {simpl : Impl η} (hh : simpl.handler = (s.impl l).handler)
    (hr : simpl.phase.Running ↔ (s.impl l).phase.Running) : Wired (s.setImpl l simpl) := by
  have handler : ∀ l', ((s.setImpl l simpl).impl l').handler = (s.impl l').handler := by
    intro l'
    rw [impl_setImpl]
    split
    · next he => rw [he, hh]
    · rfl
  have running : ∀ l', ((s.setImpl l simpl).impl l').phase.Running ↔ (s.impl l').phase.Running := by
    intro l'
    rw [impl_setImpl]
    split
    · next he => rw [he, hr]
    · rfl
  refine ⟨?_, ?_, ?_, h.implmap_given, ?_⟩
  · intro l' hl
    obtain ⟨x, h1, h2⟩ := h.running l' ((running l').mp hl)
    exact ⟨x, (handler l').trans h1, h2⟩
  · intro l' x hl hx
    exact h.away l' x (fun hl' => hl ((running l').mpr hl')) ((handler l').symm.trans hx)
  · intro l' x hx
    exact h.handler_given l' x ((handler l').symm.trans hx)
  · intro l₁ l₂ x h1 h2
    exact h.handler_inj l₁ l₂ x ((handler l₁).symm.trans h1) ((handler l₂).symm.trans h2)

theorem Kept.setImpl {s : State η} (h : Kept s) {l : Nat} {simpl : Impl η}
    (hh : simpl.phase.handlingOf = (s.impl l).phase.handlingOf)
    (hi : ∀ cls, cls ∈ simpl.closereqs ++ simpl.phase.reqs ↔ cls ∈ (s.impl l).closereqs ++ (s.impl l).phase.reqs) :
    Kept (s.setImpl l simpl) := by
  have inflight : ∀ l' cls, cls ∈ (s.setImpl l simpl).inflight l' ↔ cls ∈ s.inflight l' := by
    intro l' cls
    rw [State.inflight, State.inflight, impl_setImpl]
    split
    · next he =>
      have hc := hi cls
      rw [he]
      simp only [List.mem_append] at hc ⊢
      exact or_congr Iff.rfl hc
    · rfl
  refine h.mono (fun _ => (Core.Keeps.refl _).ages) rfl rfl (fun _ => id) ?_ (fun l' cls => (inflight l' cls).mp)
    fun l' cls hc => .inl ((inflight l' cls).mpr hc)
  intro l'
  rw [impl_setImpl]
  split
  · next he => rw [he, hh]
  · rfl

/-- All three invariants of the service. -/
structure Inv (s : State η) : Prop where
  wired : Wired s
  held : Held s
  kept : Kept s

/-- A step of one thread that moves no request out of its loop, with no events of it left. -/
theorem Inv.setImpl {s : State η} (h : Inv s) {l : Nat} {simpl : Impl η} (hh : simpl.handler = (s.impl l).handler)
    (hr : simpl.phase.Running ↔ (s.impl l).phase.Running)
    (hi : simpl.closereqs ++ simpl.phase.reqs = (s.impl l).closereqs ++ (s.impl l).phase.reqs)
    (ho : simpl.phase.handlingOf = (s.impl l).phase.handlingOf) (hn : simpl.phase.items.Nodup)
    (hl : ∀ item ∈ simpl.phase.items, (s.setImpl l simpl).Live l item) : Inv (s.setImpl l simpl) :=
  ⟨h.wired.setImpl hh hr, h.held.setImpl (hi ▸ .refl _) hn hl, h.kept.setImpl ho fun cls => by rw [hi]⟩

theorem Inv.swap {s : State η} (h : Inv s) (l : Nat) : Inv (s.swap l) := by
  unfold State.swap
  split
  · next hp =>
    refine h.setImpl rfl ?_ ?_ ?_ List.nodup_nil (by simp [Phase.items])
    · rw [hp]; exact Iff.rfl
    · rw [hp]; exact (List.append_nil _).symm
    · rw [hp]; rfl
  · exact h

theorem Inv.epollWait {s : State η} (h : Inv s) (l : Nat) (items : List Item) : Inv (s.epollWait l items) := by
  unfold State.epollWait
  split
  · next hp =>
    split
    · next hg =>
      obtain ⟨-, hn, hrep⟩ := hg
      obtain ⟨x, h1, h2⟩ := h.wired.running l (by rw [hp]; trivial)
      refine h.setImpl rfl ?_ ?_ ?_ hn ?_
      · rw [hp]; exact Iff.rfl
      · rw [hp]; rfl
      · rw [hp]; rfl
      · intro item hitem
        have hr := hrep item hitem
        have hself : (s.setImpl l { s.impl l with phase := .batch items false }).impl l =
            { s.impl l with phase := .batch items false } := by rw [impl_setImpl, if_pos rfl]
        cases item with
        | event k gen =>
          obtain ⟨h3, h4, h5⟩ := hr
          refine ⟨h.held.registered k h3, h4, h3, x, ?_, ?_, h2⟩
          · exact h5.trans h1
          · rw [hself]; exact h1
        | finish n =>
          show n ∈ ((s.setImpl l { s.impl l with phase := .batch items false }).impl l).finishes
          rw [hself]
          exact hr
    · exact h
  · exact h

theorem Inv.waitFailed {s : State η} (h : Inv s) (l : Nat) : Inv (s.waitFailed l) := by
  unfold State.waitFailed
  split
  · next hp =>
    refine h.setImpl rfl ?_ ?_ ?_ List.nodup_nil (by simp [Phase.items])
    · rw [hp]; exact Iff.rfl
    · rw [hp]; rfl
    · rw [hp]; rfl
  · exact h

theorem Inv.turn {s : State η} (h : Inv s) (l : Nat) : Inv (s.turn l) := by
  unfold State.turn
  split
  · next hp =>
    refine h.setImpl rfl ?_ ?_ ?_ List.nodup_nil (by simp [Phase.items])
    · rw [hp]; exact Iff.rfl
    · rw [hp]; rfl
    · rw [hp]; rfl
  · next hp =>
    refine h.setImpl rfl ?_ ?_ ?_ List.nodup_nil (by simp [Phase.items])
    · rw [hp]; exact Iff.rfl
    · rw [hp]; rfl
    · rw [hp]; rfl
  · exact h

theorem Inv.execOp {s : State η} (h : Inv s) (l : Nat) : Inv (s.execOp l) := by
  unfold State.execOp
  split
  · next k gen items brk hp =>
    have hn := h.held.items l
    have hl := h.held.live l
    rw [hp] at hn hl
    refine h.setImpl rfl ?_ ?_ ?_ (List.nodup_cons.mp hn).2 ?_
    · rw [hp]; exact Iff.rfl
    · rw [hp]; rfl
    · rw [hp]; rfl
    · intro item hitem
      refine (hl item (List.mem_cons_of_mem _ hitem)).mono (fun _ => .refl _) (fun _ _ => id) ?_ fun n hm => ?_
      · rw [impl_setImpl, if_pos rfl]
      · rw [impl_setImpl, if_pos rfl]; exact hm
  · next n items brk hp =>
    have hn := h.held.items l
    have hl := h.held.live l
    rw [hp] at hn hl
    refine h.setImpl rfl ?_ ?_ ?_ (List.nodup_cons.mp hn).2 ?_
    · rw [hp]; exact Iff.rfl
    · rw [hp]; rfl
    · rw [hp]; rfl
    · intro item hitem
      have hlive := hl item (List.mem_cons_of_mem _ hitem)
      cases item with
      | event k gen =>
        obtain ⟨h1, h2, h3, x, h4, h5, h6⟩ := hlive
        refine ⟨h1, h2, h3, x, h4, ?_, h6⟩
        rw [impl_setImpl, if_pos rfl]
        exact h5
      | finish m =>
        show m ∈ (Impl.finishes _)
        rw [impl_setImpl, if_pos rfl]
        refine (List.mem_erase_of_ne ?_).mpr hlive
        intro he
        exact (List.nodup_cons.mp hn).1 (he ▸ hitem)
  · exact h

theorem Inv.async {s : State η} (h : Inv s) (k : Nat) (modifies ok : Bool) : Inv (s.async k modifies ok) := by
  rcases s.async_core k modifies ok with he | ⟨c, idx, as, he, hfd, hk, hb⟩
  · rw [he]; exact h
  · rw [he]
    refine ⟨h.wired.touch k c idx as, h.held.touch hk ?_ ?_ idx as, h.kept.touch hk.ages idx as⟩
    · intro h1
      rw [hb] at h1
      cases h1
    · intro _
      rw [hk.fd]
      exact hfd

theorem Inv.destroy {s : State η} (h : Inv s) (k : Nat) : Inv (s.destroy k) := by
  unfold State.destroy
  dsimp only
  split
  · have hk : (s.core k).Keeps { s.core k with block := true, bind := false, destroyed := true } :=
      ⟨rfl, rfl, id, id, fun _ => id⟩
    refine ⟨h.wired.touch k _ s.implidx s.assigned, h.held.touch hk ?_ ?_ s.implidx s.assigned,
      h.kept.touch hk.ages s.implidx s.assigned⟩
    · intro _ h2
      cases h2
    · exact h.held.registered k
  · exact h

/-! ## Descriptors that come and go -/

/-- A step that gives a descriptor to a core, or takes it away. -/
def withFds (s : State η) (k : Nat) (c : Core) (fds : Nat → Option Nat) : State η := { s.setCore k c with fds }

theorem core_withFds (s : State η) (k : Nat) (c : Core) (fds : Nat → Option Nat) (k' : Nat) :
    (s.withFds k c fds).core k' = if k' = k then c else s.core k' := s.core_setCore k c k'

/-- Nothing that is under way is about the core. -/
def Idle (s : State η) (k : Nat) : Prop :=
  (∀ l, ∀ cls ∈ s.inflight l, cls.impl ≠ k) ∧ ∀ l gen, .event k gen ∉ (s.impl l).phase.items

theorem Held.idle {s : State η} (h : Held s) {k : Nat} (hk : (s.core k).fd = none) : s.Idle k := by
  constructor
  · rintro l cls hcls rfl
    have := (h.pending l cls hcls).fd
    rw [hk] at this
    cases this
  · intro l gen hi
    have := (h.live l _ hi).1
    rw [hk] at this
    cases this

theorem Held.withFds {s : State η} (h : Held s) {k : Nat} {c : Core} {fds : Nat → Option Nat} (hi : s.Idle k)
    (ho : ∀ fd, c.fd = some fd → fds fd = some k)
    (ho' : ∀ k' fd, k' ≠ k → (s.core k').fd = some fd → fds fd = some k')
    (hb : c.block = true → c.destroyed = false → c.epoll = none) (hr : c.registered = true → c.fd.isSome) :
    Held (s.withFds k c fds) := by
  have keeps : ∀ k', k' ≠ k → (s.core k').Keeps ((s.withFds k c fds).core k') := by
    intro k' hne
    rw [core_withFds, if_neg hne]
    exact .refl _
  refine ⟨?_, ?_, ?_, ?_, h.nodup, h.items, ?_⟩
  · intro k' fd
    rw [core_withFds]
    split
    · next he => rw [he]; exact ho fd
    · next he => exact ho' k' fd he
  · intro k'
    rw [core_withFds]
    split
    · exact hb
    · exact h.block k'
  · intro k'
    rw [core_withFds]
    split
    · exact hr
    · exact h.registered k'
  · intro l cls hcls
    exact (h.pending l cls hcls).mono (keeps _ (hi.1 l cls hcls)) fun _ _ => id
  · intro l item hitem
    cases item with
    | finish n => exact h.live l _ hitem
    | event k' gen =>
      have hne : k' ≠ k := by
        rintro rfl
        exact hi.2 l gen hitem
      obtain ⟨h1, h2, h3, x, h4, h5⟩ := h.live l _ hitem
      have hk := keeps k' hne
      exact ⟨by rw [hk.fd]; exact h1, hk.gen.trans h2, hk.registered h3, x, hk.epoll x h4, h5⟩

theorem Kept.withFds {s : State η} (h : Kept s) {k : Nat} {c : Core} (hk : (s.core k).Ages c) (fds : Nat → Option Nat) :
    Kept (s.withFds k c fds) := by
  refine h.mono ?_ rfl rfl (fun _ => id) (fun _ => rfl) (fun _ _ => id) fun _ _ => .inl
  intro k'
  rw [core_withFds]
  split
  · next he => rw [he]; exact hk
  · exact (Core.Keeps.refl _).ages

theorem Wired.withFds {s : State η} (h : Wired s) (k : Nat) (c : Core) (fds : Nat → Option Nat) :
    Wired (s.withFds k c fds) := ⟨h.running, h.away, h.handler_given, h.implmap_given, h.handler_inj⟩

theorem Inv.giveFd {s : State η} (h : Inv s) (k fd : Nat) : Inv (s.giveFd k fd) := by
  unfold State.giveFd
  dsimp only
  split
  swap
  · exact h
  next hg =>
  obtain ⟨hc, hd, hf⟩ := hg
  refine ⟨h.wired.withFds k _ _, h.held.withFds (h.held.idle hc) ?_ ?_ (h.held.block k) fun _ => rfl, h.kept.withFds ?_ _⟩
  · intro fd' he
    rw [← Option.some.inj he, Function.update_self]
  · intro k' fd' _ he
    have ho := h.held.owner k' fd' he
    rw [Function.update_of_ne, ho]
    rintro rfl
    rw [hf] at ho
    cases ho
  · exact ⟨.inl (Nat.lt_succ_self _)⟩

theorem Held.closeFd {s : State η} (h : Held s) {k : Nat} (hi : s.Idle k) : Held (s.closeFd k) := by
  refine h.withFds hi ?_ ?_ ?_ ?_
  · intro fd he
    cases he
  · intro k' fd hne he
    have ho := h.owner k' fd he
    cases he' : (s.core k).fd with
    | none => exact ho
    | some fd' =>
      show Function.update s.fds fd' none fd = some k'
      rw [Function.update_of_ne, ho]
      rintro rfl
      rw [h.owner k fd he'] at ho
      exact hne (Option.some.inj ho).symm
  · intro hb
    cases hb
  · intro hr
    cases hr

theorem closeFd_ages (s : State η) (k k' : Nat) : (s.core k').Ages ((s.closeFd k).core k') := by
  rw [show (s.closeFd k).core k' = _ from s.core_setCore k _ k']
  split
  · next he => rw [he]; exact ⟨.inr ⟨rfl, fun _ => rfl, fun _ => .inr rfl⟩⟩
  · exact (Core.Keeps.refl _).ages

theorem Inv.closeFd {s : State η} (h : Inv s) {k : Nat} (hi : s.Idle k) : Inv (s.closeFd k) :=
  ⟨h.wired.withFds k _ _, h.held.closeFd hi,
    h.kept.mono (s.closeFd_ages k) rfl rfl (fun _ => id) (fun _ => rfl) (fun _ _ => id) fun _ _ => .inl⟩

theorem Held.idle_of_block {s : State η} (h : Held s) {k : Nat} (hb : (s.core k).block = true)
    (hd : (s.core k).destroyed = false) : s.Idle k := by
  have he := h.block k hb hd
  constructor
  · rintro l cls hcls rfl
    obtain ⟨x, h1, -⟩ := (h.pending l cls hcls).epoll
    rw [he] at h1
    cases h1
  · intro l gen hi
    obtain ⟨-, -, -, x, h1, -⟩ := h.live l _ hi
    rw [he] at h1
    cases h1

/-! ## Close requests -/

theorem postingAt_cons (s : State η) (l : Nat) (cls : SocketClose η) (made : List (SocketClose η)) (l' : Nat) :
    ({ s with posting := (l, cls) :: s.posting, made } : State η).postingAt l' =
      if l' = l then cls :: s.postingAt l' else s.postingAt l' := by
  rw [postingAt, List.filterMap_cons]
  by_cases he : l' = l
  · rw [if_pos he, if_pos he.symm]
    rfl
  · rw [if_neg he, if_neg (Ne.symm he)]
    rfl

theorem Inv.make {s : State η} (h : Inv s) {k l : Nat} (hl : ∃ x, (s.core k).epoll = some x ∧ s.implmap x = some l)
    (hfd : (s.core k).fd.isSome) (hc : (s.core k).closeFlag = true) (hi : ∀ l, ∀ cls ∈ s.inflight l, cls.impl ≠ k)
    (hm : ∀ cls ∈ s.made, cls.key ≠ (k, (s.core k).gen)) (handler : Option η) :
    Inv { s with
      posting := (l, ⟨k, (s.core k).gen, handler⟩) :: s.posting
      made := ⟨k, (s.core k).gen, handler⟩ :: s.made } := by
  generalize hcls : (⟨k, (s.core k).gen, handler⟩ : SocketClose η) = cls
  have inflight : ∀ l', ({ s with posting := (l, cls) :: s.posting, made := cls :: s.made } : State η).inflight l' =
      if l' = l then cls :: s.inflight l' else s.inflight l' := by
    intro l'
    rw [State.inflight, postingAt_cons]
    split <;> rfl
  have hpend : s.Pending l cls := by
    subst hcls
    exact ⟨hfd, rfl, hc, hl⟩
  have himpl : cls.impl = k := by rw [← hcls]
  have hkey : cls.key = (k, (s.core k).gen) := by rw [← hcls]; rfl
  refine ⟨⟨h.wired.running, h.wired.away, h.wired.handler_given, h.wired.implmap_given, h.wired.handler_inj⟩,
    ⟨h.held.owner, h.held.block, h.held.registered, ?_, ?_, h.held.items, h.held.live⟩,
    ⟨?_, ?_, h.kept.done_nodup, ?_, ?_, h.kept.handling_inj, ?_, ?_⟩⟩
  · intro l' cls' hm'
    rw [inflight] at hm'
    split at hm'
    · next he =>
      rw [he] at hm' ⊢
      rcases List.mem_cons.mp hm' with rfl | hm'
      · exact ⟨hpend.fd, hpend.gen, hpend.closeFlag, hpend.epoll⟩
      · have hp := h.held.pending l cls' hm'
        exact ⟨hp.fd, hp.gen, hp.closeFlag, hp.epoll⟩
    · have hp := h.held.pending l' cls' hm'
      exact ⟨hp.fd, hp.gen, hp.closeFlag, hp.epoll⟩
  · intro l'
    rw [inflight]
    split
    · rw [List.map_cons, List.nodup_cons]
      refine ⟨fun hmem => ?_, h.held.nodup l'⟩
      obtain ⟨cls', h1, h2⟩ := List.mem_map.mp hmem
      exact hi l' cls' h1 (h2.trans himpl)
    · exact h.held.nodup l'
  · rw [List.map_cons, List.nodup_cons]
    refine ⟨fun hmem => ?_, h.kept.made_nodup⟩
    obtain ⟨cls', h1, h2⟩ := List.mem_map.mp hmem
    exact hm cls' h1 (h2.trans hkey)
  · intro cls' hmem
    rcases List.mem_cons.mp hmem with rfl | hmem
    · exact .inr ⟨hpend.gen.symm, .inl hpend.closeFlag⟩
    · exact h.kept.asked cls' hmem
  · intro cls' hmem
    obtain ⟨h1, h2⟩ := h.kept.done_made cls' hmem
    exact ⟨List.mem_cons_of_mem _ h1, h2⟩
  · intro l' cls' hmem
    obtain ⟨h1, h2, h3⟩ := h.kept.handling l' cls' hmem
    exact ⟨List.mem_cons_of_mem _ h1, h2, h3⟩
  · intro l' cls' hmem
    rw [inflight] at hmem
    split at hmem
    · rcases List.mem_cons.mp hmem with rfl | hmem
      · exact List.mem_cons_self
      · exact List.mem_cons_of_mem _ (h.kept.inflight_made l' cls' hmem)
    · exact List.mem_cons_of_mem _ (h.kept.inflight_made l' cls' hmem)
  · intro cls' hmem
    rcases List.mem_cons.mp hmem with rfl | hmem
    · refine .inr (.inr ⟨l, .inl ?_⟩)
      rw [inflight, if_pos rfl]
      exact List.mem_cons_self
    · rcases h.kept.accounted cls' hmem with h1 | h1 | ⟨l', h1 | h1⟩
      · exact .inl h1
      · exact .inr (.inl h1)
      · refine .inr (.inr ⟨l', .inl ?_⟩)
        rw [inflight]
        split
        · exact List.mem_cons_of_mem _ h1
        · exact h1
      · exact .inr (.inr ⟨l', .inr h1⟩)

theorem Inv.close {s : State η} (h : Inv s) (k : Nat) (handler : Option η) : Inv (s.close k handler) := by
  unfold State.close
  dsimp only
  split
  · exact h
  next hg =>
  rw [not_or, not_or] at hg
  obtain ⟨hf, hc, hd⟩ := hg
  have hd : (s.core k).destroyed = false := Bool.eq_false_iff.mpr hd
  have hfd : (s.core k).fd.isSome := Option.isSome_iff_ne_none.mpr hf
  by_cases hb : (s.core k).block = true
  · rw [h.held.block k hb hd, if_pos hb]
    exact h.closeFd (h.held.idle_of_block hb hd)
  · rw [if_neg hb]
    have hk : (s.core k).Keeps { s.core k with closeFlag := true } := ⟨rfl, rfl, fun _ => rfl, id, fun _ => id⟩
    have h' : Inv (s.touch k { s.core k with closeFlag := true } s.implidx s.assigned) := by
      refine ⟨h.wired.touch _ _ _ _, h.held.touch hk ?_ (h.held.registered k) _ _, h.kept.touch hk.ages _ _⟩
      exact fun h1 => absurd h1 hb
    cases hl : (s.core k).epoll.bind s.implmap with
    | none => exact h'
    | some l =>
      obtain ⟨x, h1, h2⟩ := Option.bind_eq_some_iff.mp hl
      have hcore := s.touch_core k { s.core k with closeFlag := true } s.implidx s.assigned
      have hmade := h'.make (k := k) (l := l) (by rw [hcore]; exact ⟨x, h1, h2⟩) (by rw [hcore]; exact hfd)
        (by rw [hcore]) ?_ ?_ handler
      · rw [hcore] at hmade
        exact hmade
      · rintro l' cls hcls rfl
        exact hc (h.held.pending l' cls hcls).closeFlag
      · intro cls hcls hkey
        rw [hcore] at hkey
        obtain ⟨rfl, hgen⟩ := Prod.mk.inj hkey
        rcases h.kept.asked cls hcls with h3 | ⟨-, h3 | h3⟩
        · exact Nat.ne_of_lt h3 hgen
        · exact hc h3
        · exact hf h3

/-- What other threads do to the loops: requests get closer to them, and operations that end them are posted. -/
structure Visits (s s' : State η) : Prop where
  core : s'.core = s.core
  fds : s'.fds = s.fds
  implmap : s'.implmap = s.implmap
  given : s'.given = s.given
  made : s'.made = s.made
  done : s'.done = s.done
  deleted : s'.deleted = s.deleted
  phase : ∀ l, (s'.impl l).phase = (s.impl l).phase
  handler : ∀ l, (s'.impl l).handler = (s.impl l).handler
  finishes : ∀ l, (s.impl l).finishes ⊆ (s'.impl l).finishes
  inflight : ∀ l, (s'.inflight l).Perm (s.inflight l)

theorem Inv.visits {s s' : State η} (h : Inv s) (hv : s.Visits s') : Inv s' := by
  have hkeeps : ∀ k, (s.core k).Keeps (s'.core k) := by
    intro k
    rw [hv.core]
    exact .refl _
  have hmap : ∀ x l, s.implmap x = some l → s'.implmap x = some l := by
    rw [hv.implmap]
    exact fun _ _ => id
  refine ⟨⟨?_, ?_, ?_, ?_, ?_⟩, h.held.moves hv.core hv.fds hmap (fun l => (hv.inflight l).subperm) ?_ ?_,
    h.kept.mono (fun k => (hkeeps k).ages) hv.made hv.done (fun _ => hv.deleted ▸ id) ?_
      (fun l _ => (hv.inflight l).mem_iff.mp) fun l _ hc => .inl ((hv.inflight l).mem_iff.mpr hc)⟩
  · intro l
    rw [hv.phase, hv.handler, hv.implmap]
    exact h.wired.running l
  · intro l x
    rw [hv.phase, hv.handler, hv.implmap]
    exact h.wired.away l x
  · intro l x
    rw [hv.handler, hv.given]
    exact h.wired.handler_given l x
  · rw [hv.implmap, hv.given]
    exact h.wired.implmap_given
  · intro l₁ l₂ x
    rw [hv.handler, hv.handler]
    exact h.wired.handler_inj l₁ l₂ x
  · intro l
    rw [hv.phase]
    exact h.held.items l
  · intro l item hitem
    rw [hv.phase] at hitem
    exact (h.held.live l item hitem).mono hkeeps hmap (hv.handler l) fun _ => (hv.finishes l ·)
  · intro l
    rw [hv.phase]

theorem postingAt_eraseIdx {s : State η} {i l : Nat} {cls : SocketClose η} (hi : s.posting[i]? = some (l, cls))
    (l' : Nat) :
    (if l' = l then cls :: ({ s with posting := s.posting.eraseIdx i } : State η).postingAt l'
      else ({ s with posting := s.posting.eraseIdx i } : State η).postingAt l').Perm (s.postingAt l') := by
  obtain ⟨hlt, hget⟩ := List.getElem?_eq_some_iff.mp hi
  have hperm := (List.getElem_cons_eraseIdx_perm hlt).filterMap fun p => if p.1 = l' then some p.2 else none
  rw [hget, List.filterMap_cons] at hperm
  by_cases he : l' = l
  · rw [if_pos he]
    rw [if_pos he.symm] at hperm
    exact hperm
  · rw [if_neg he]
    rw [if_neg (Ne.symm he)] at hperm
    exact hperm

theorem Inv.post {s : State η} (h : Inv s) (i : Nat) : Inv (s.post i) := by
  unfold State.post
  split
  · exact h
  next l cls hi =>
  have himpl : ∀ l', (s.setImpl l { s.impl l with closereqs := (s.impl l).closereqs ++ [cls] }).impl l' =
      if l' = l then { s.impl l with closereqs := (s.impl l).closereqs ++ [cls] } else s.impl l' :=
    s.impl_setImpl l _
  refine h.visits ⟨rfl, rfl, rfl, rfl, rfl, rfl, rfl, fun l' => ?_, fun l' => ?_, fun l' => ?_, fun l' => ?_⟩
  · show ((s.setImpl l _).impl l').phase = _
    rw [himpl]
    split
    · next he => rw [he]
    · rfl
  · show ((s.setImpl l _).impl l').handler = _
    rw [himpl]
    split
    · next he => rw [he]
    · rfl
  · show _ ⊆ ((s.setImpl l _).impl l').finishes
    rw [himpl]
    split
    · next he => rw [he]; exact fun _ => id
    · exact fun _ => id
  · have hp := postingAt_eraseIdx hi l'
    show (State.postingAt _ l' ++ (((s.setImpl l _).impl l').closereqs ++ ((s.setImpl l _).impl l').phase.reqs)).Perm _
    rw [himpl]
    split
    · next he =>
      rw [if_pos he] at hp
      rw [he] at hp ⊢
      rw [List.append_assoc, List.singleton_append]
      -- the request goes from the calls that are posting to the end of the queue
      exact (List.perm_middle.append_left _).trans (List.perm_middle.trans (hp.append_right _))
    · next he =>
      rw [if_neg he] at hp
      exact hp.append_right _

section
variable {s : State η} {l : Nat} {cls : SocketClose η} {closereqs : List (SocketClose η)}
  (hp : (s.impl l).phase = .closing (cls :: closereqs))
include hp

theorem inflight_handling_sublist (l' : Nat) :
    ((s.setPhase l (.handling cls closereqs)).inflight l').Sublist (s.inflight l') := by
  rw [inflight, inflight, setPhase, impl_setImpl]
  split
  · next he =>
    rw [he, hp]
    exact ((List.sublist_cons_self cls closereqs).append_left _).append_left _
  · exact .refl _

theorem inflight_handling_perm :
    (s.inflight l).Perm (cls :: (s.setPhase l (.handling cls closereqs)).inflight l) := by
  rw [inflight, inflight, setPhase, impl_setImpl, if_pos rfl, hp]
  exact (List.perm_middle.append_left _).trans List.perm_middle

theorem Held.pending_closing (h : Held s) : s.Pending l cls :=
  h.pending l cls ((inflight_handling_perm hp).mem_iff.mpr List.mem_cons_self)

/-- With the request out of the queue nothing is under way about its socket. -/
theorem Held.idle_handling (h : Held s) : (s.setPhase l (.handling cls closereqs)).Idle cls.impl := by
  obtain ⟨x, h1, h2⟩ := (h.pending_closing hp).epoll
  constructor
  · intro l' cls' hcls' he
    obtain ⟨x', h3, h4⟩ := (h.pending l' cls' ((inflight_handling_sublist hp l').subset hcls')).epoll
    rw [he, h1] at h3
    rw [← Option.some.inj h3, h2] at h4
    obtain rfl := Option.some.inj h4
    have hn := h.nodup l
    rw [((inflight_handling_perm hp).map _).nodup_iff, List.map_cons, List.nodup_cons] at hn
    exact hn.1 (List.mem_map.mpr ⟨cls', hcls', he⟩)
  · intro l' gen hi
    rw [setPhase, impl_setImpl] at hi
    split at hi
    · cases hi
    · next hne =>
      obtain ⟨-, -, -, x', h3, h4, h5⟩ := h.live l' _ hi
      rw [h1] at h3
      rw [← Option.some.inj h3, h2] at h5
      exact hne (Option.some.inj h5).symm

theorem Kept.doClose (h : Kept s) (hpend : s.Pending l cls) :
    Kept ((s.closeFd cls.impl).setPhase l (.handling cls closereqs)) := by
  have hages : ∀ k, (s.core k).Ages (((s.closeFd cls.impl).setPhase l (.handling cls closereqs)).core k) :=
    s.closeFd_ages cls.impl
  have hfin : ((s.closeFd cls.impl).setPhase l (.handling cls closereqs)).Finished cls := by
    refine .inr ?_
    rw [core_setPhase, show (s.closeFd cls.impl).core cls.impl = _ from s.core_setCore cls.impl _ cls.impl, if_pos rfl]
    exact ⟨hpend.gen.symm, rfl⟩
  have hhandling : ∀ l' cls', (((s.closeFd cls.impl).setPhase l (.handling cls closereqs)).impl l').phase.handlingOf =
      some cls' → (l' = l ∧ cls' = cls) ∨ (l' ≠ l ∧ (s.impl l').phase.handlingOf = some cls') := by
    intro l' cls' hc
    rw [setPhase, impl_setImpl] at hc
    split at hc
    · next he => exact .inl ⟨he, (Option.some.inj hc).symm⟩
    · next he => exact .inr ⟨he, hc⟩
  have hnew : ∀ cls', s.Finished cls' → cls'.key ≠ cls.key := fun cls' hf he => hpend.not_finished hf he.symm
  refine ⟨h.made_nodup, fun c hc => (h.asked c hc).mono (hages _), h.done_nodup, ?_, ?_, ?_, ?_, ?_⟩
  · intro c hc
    obtain ⟨h1, h2⟩ := h.done_made c hc
    exact ⟨h1, h2.mono (hages _)⟩
  · intro l' c hc
    rcases hhandling l' c hc with ⟨-, rfl⟩ | ⟨-, hc⟩
    · refine ⟨h.inflight_made l c ((inflight_handling_perm hp).mem_iff.mpr List.mem_cons_self), hfin, fun hmem => ?_⟩
      obtain ⟨c', h1, h2⟩ := List.mem_map.mp hmem
      exact hnew c' (h.done_made c' h1).2 h2
    · obtain ⟨h1, h2, h3⟩ := h.handling l' c hc
      exact ⟨h1, h2.mono (hages _), h3⟩
  · intro l₁ l₂ c₁ c₂ h1 h2 hkey
    rcases hhandling l₁ c₁ h1 with ⟨rfl, rfl⟩ | ⟨-, h1⟩ <;> rcases hhandling l₂ c₂ h2 with ⟨h2l, h2c⟩ | ⟨-, h2⟩
    · exact h2l.symm
    · exact absurd hkey.symm (hnew c₂ (h.handling l₂ c₂ h2).2.1)
    · exact absurd (h2c ▸ hkey) (hnew c₁ (h.handling l₁ c₁ h1).2.1)
    · exact h.handling_inj l₁ l₂ c₁ c₂ h1 h2 hkey
  · exact fun l' c hc => h.inflight_made l' c ((inflight_handling_sublist hp l').subset hc)
  · intro c hc
    rcases h.accounted c hc with h1 | h1 | ⟨l', h1 | h1⟩
    · exact .inl h1
    · exact .inr (.inl h1)
    · refine .inr (.inr ⟨l', ?_⟩)
      by_cases he : l' = l
      · subst he
        rcases List.mem_cons.mp ((inflight_handling_perm hp).mem_iff.mp h1) with rfl | h1
        · refine .inr ?_
          rw [setPhase, impl_setImpl, if_pos rfl]
          rfl
        · exact .inl h1
      · refine .inl ?_
        show c ∈ s.postingAt l' ++ _
        rw [setPhase, impl_setImpl, if_neg he]
        exact h1
    · refine .inr (.inr ⟨l', .inr ?_⟩)
      rw [setPhase, impl_setImpl]
      split
      · next he =>
        rw [he, hp] at h1
        cases h1
      · exact h1

end

theorem Inv.doClose {s : State η} (h : Inv s) (l : Nat) : Inv (s.doClose l) := by
  unfold State.doClose
  split
  · next hp =>
    refine h.setImpl rfl ?_ ?_ ?_ List.nodup_nil (by simp [Phase.items])
    · rw [hp]; exact Iff.rfl
    · rw [hp]; rfl
    · rw [hp]; rfl
  swap
  · exact h
  next cls closereqs hp =>
  -- out of the queue first, and then the descriptor is closed
  have held : Held (s.setPhase l (.handling cls closereqs)) := by
    refine h.held.setImpl ?_ List.nodup_nil (by simp [Phase.items])
    rw [hp]
    exact ((List.sublist_cons_self cls closereqs).append_left _).subperm
  refine ⟨(h.wired.withFds cls.impl _ _).setImpl rfl ?_, held.closeFd (h.held.idle_handling hp),
    h.kept.doClose hp (h.held.pending_closing hp)⟩
  show True ↔ (s.impl l).phase.Running
  rw [hp]
  exact Iff.rfl

theorem Inv.handled {s : State η} (h : Inv s) (l : Nat) : Inv (s.handled l) := by
  unfold State.handled
  split
  swap
  · exact h
  next cls closereqs hp =>
  obtain ⟨hmade, hfin, hnot⟩ := h.kept.handling l cls (by rw [hp]; rfl)
  have hreqs : (s.impl l).closereqs ++ closereqs = (s.impl l).closereqs ++ (s.impl l).phase.reqs := by rw [hp]; rfl
  have wired : Wired (s.setPhase l (.closing closereqs)) := by
    refine h.wired.setImpl rfl ?_
    rw [hp]
    exact Iff.rfl
  have held : Held (s.setPhase l (.closing closereqs)) :=
    h.held.setImpl (hreqs ▸ .refl _) List.nodup_nil (by simp [Phase.items])
  have inflight : ∀ l', (s.setPhase l (.closing closereqs)).inflight l' = s.inflight l' := by
    intro l'
    rw [State.inflight, State.inflight, setPhase, impl_setImpl]
    split
    · next he => rw [he]; exact congrArg _ hreqs
    · rfl
  have hhandling : ∀ l' c, ((s.setPhase l (.closing closereqs)).impl l').phase.handlingOf = some c →
      l' ≠ l ∧ (s.impl l').phase.handlingOf = some c := by
    intro l' c hc
    rw [setPhase, impl_setImpl] at hc
    split at hc
    · cases hc
    · next he => exact ⟨he, hc⟩
  refine ⟨⟨wired.running, wired.away, wired.handler_given, wired.implmap_given, wired.handler_inj⟩,
    ⟨held.owner, held.block, held.registered, fun l' c hc => ?_, held.nodup, held.items, held.live⟩,
    ⟨h.kept.made_nodup, h.kept.asked, ?_, ?_, ?_, ?_, ?_, ?_⟩⟩
  · have hpend := held.pending l' c hc
    exact ⟨hpend.fd, hpend.gen, hpend.closeFlag, hpend.epoll⟩
  · exact List.nodup_cons.mpr ⟨hnot, h.kept.done_nodup⟩
  · intro c hc
    rcases List.mem_cons.mp hc with rfl | hc
    · exact ⟨hmade, hfin⟩
    · exact h.kept.done_made c hc
  · intro l' c hc
    obtain ⟨hne, hc⟩ := hhandling l' c hc
    obtain ⟨h1, h2, h3⟩ := h.kept.handling l' c hc
    refine ⟨h1, h2, fun hmem => ?_⟩
    rcases List.mem_cons.mp hmem with he | hmem
    · exact hne (h.kept.handling_inj l' l c cls hc (by rw [hp]; rfl) he)
    · exact h3 hmem
  · intro l₁ l₂ c₁ c₂ h1 h2
    exact h.kept.handling_inj l₁ l₂ c₁ c₂ (hhandling l₁ c₁ h1).2 (hhandling l₂ c₂ h2).2
  · intro l' c hc
    exact h.kept.inflight_made l' c (inflight l' ▸ hc)
  · intro c hc
    rcases h.kept.accounted c hc with h1 | h1 | ⟨l', h1 | h1⟩
    · exact .inl (List.mem_cons_of_mem _ h1)
    · exact .inr (.inl h1)
    · exact .inr (.inr ⟨l', .inl ((inflight l').symm ▸ h1)⟩)
    · by_cases he : l' = l
      · rw [he, hp] at h1
        rw [← Option.some.inj h1]
        exact .inl List.mem_cons_self
      · refine .inr (.inr ⟨l', .inr ?_⟩)
        show ((s.setPhase l (.closing closereqs)).impl l').phase.handlingOf = some c
        rw [setPhase, impl_setImpl, if_neg he]
        exact h1

/-! ## Loops that start and end -/

/-- A thread without events goes on, with other tables of the service. -/
def relink (s : State η) (l : Nat) (simpl : Impl η) (implmap : Nat → Option Nat) (implvector given : List Nat)
    (deleted : List (SocketClose η)) : State η := { s.setImpl l simpl with implmap, implvector, given, deleted }

section
variable {s : State η} {l : Nat} {simpl : Impl η} {implmap : Nat → Option Nat} {implvector given : List Nat}
  {deleted : List (SocketClose η)}

theorem relink_impl (l' : Nat) : (s.relink l simpl implmap implvector given deleted).impl l' =
    if l' = l then simpl else s.impl l' := s.impl_setImpl l simpl l'

theorem inflight_relink
    (hi : (simpl.closereqs ++ simpl.phase.reqs).Sublist ((s.impl l).closereqs ++ (s.impl l).phase.reqs)) (l' : Nat) : ((s.relink l simpl implmap implvector given deleted).inflight l').Sublist (s.inflight l') := by
  unfold inflight
  rw [relink_impl]
  split
  · next he =>
    rw [he]
    exact hi.append_left _
  · exact .refl _

theorem Held.relink (h : Held s) (hm : ∀ x l', s.implmap x = some l' → implmap x = some l')
    (hi : (simpl.closereqs ++ simpl.phase.reqs).Sublist ((s.impl l).closereqs ++ (s.impl l).phase.reqs))
    (hn : simpl.phase.items = []) : Held (s.relink l simpl implmap implvector given deleted) := by
  refine h.moves rfl rfl hm (fun l' => (inflight_relink hi l').subperm) ?_ ?_
  · intro l'
    rw [relink_impl]
    split
    · rw [hn]
      exact List.nodup_nil
    · exact h.items l'
  · intro l' item hitem
    rw [relink_impl] at hitem
    split at hitem
    · rw [hn] at hitem
      cases hitem
    · next he =>
      refine (h.live l' item hitem).mono (fun _ => .refl _) hm ?_ ?_
      · rw [relink_impl, if_neg he]
      · rw [relink_impl, if_neg he]
        exact fun _ => id

theorem Kept.relink (h : Kept s) (hh : simpl.phase.handlingOf = (s.impl l).phase.handlingOf)
    (hi : (simpl.closereqs ++ simpl.phase.reqs).Sublist ((s.impl l).closereqs ++ (s.impl l).phase.reqs))
    (hx : ∀ cls ∈ s.deleted, cls ∈ deleted)
    (hd : ∀ cls ∈ (s.impl l).closereqs ++ (s.impl l).phase.reqs,
      cls ∈ simpl.closereqs ++ simpl.phase.reqs ∨ cls ∈ deleted) :
    Kept (s.relink l simpl implmap implvector given deleted) := by
  refine h.mono (fun _ => (Core.Keeps.refl _).ages) rfl rfl hx ?_ (fun l' _ hc => (inflight_relink hi l').subset hc) ?_
  · intro l'
    rw [relink_impl]
    split
    · next he => rw [hh, he]
    · rfl
  · intro l' cls hc
    unfold inflight at hc ⊢
    rw [relink_impl]
    split
    · next he =>
      rw [he] at hc
      rcases List.mem_append.mp hc with hc | hc
      · exact .inl (List.mem_append_left _ (he ▸ hc))
      · exact (hd cls hc).imp_left fun hc => List.mem_append_right _ hc
    · exact .inl hc

end

theorem Wired.release {s : State η} (h : Wired s) (l : Nat) {y : Nat} (hy : y ∉ s.given)
    (closereqs deleted : List (SocketClose η)) :
    Wired (s.relink l { handler := some y, closereqs, finishes := [], phase := .released } s.implmap s.implvector
      (y :: s.given) deleted) := by
  refine ⟨?_, ?_, ?_, ?_, ?_⟩
  · intro l'
    rw [relink_impl]
    split
    · exact False.elim
    · exact h.running l'
  · intro l' x
    rw [relink_impl]
    split
    · intro _ hx
      cases hm : s.implmap x with
      | none => exact hm
      | some l₂ => exact absurd (Option.some.inj hx ▸ h.implmap_given x l₂ hm) hy
    · exact h.away l' x
  · intro l' x hx
    rw [relink_impl] at hx
    split at hx
    · rw [← Option.some.inj hx]
      exact List.mem_cons_self
    · exact List.mem_cons_of_mem y (h.handler_given l' x hx)
  · exact fun x l' hx => List.mem_cons_of_mem y (h.implmap_given x l' hx)
  · intro l₁ l₂ x h1 h2
    rw [relink_impl] at h1 h2
    split at h1 <;> split at h2
    · next h3 h4 => rw [h3, h4]
    · exact absurd (Option.some.inj h1 ▸ h.handler_given l₂ x h2) hy
    · exact absurd (Option.some.inj h2 ▸ h.handler_given l₁ x h1) hy
    · exact h.handler_inj l₁ l₂ x h1 h2

theorem Inv.release {s : State η} (h : Inv s) (l : Nat) {y : Nat} (hy : y ∉ s.given) : Inv (s.release l y) := by
  unfold State.release
  split
  swap
  · exact h
  next hp =>
  refine ⟨h.wired.release l hy _ _, h.held.relink (fun _ _ => id) (List.nil_sublist _) rfl,
    h.kept.relink ?_ (List.nil_sublist _) (fun _ => List.mem_append_right _) ?_⟩
  · rw [hp]
    rfl
  · intro cls hc
    rw [hp] at hc
    exact .inr (List.mem_append_left _ (by simpa [Phase.reqs] using hc))

theorem Inv.unlink {s : State η} (h : Inv s) (l : Nat) : Inv (s.unlink l) := by
  unfold State.unlink
  split
  swap
  · exact h
  next hp =>
  have h' : Inv (s.setPhase l .idle) := by
    refine h.setImpl rfl ?_ ?_ ?_ List.nodup_nil (by simp [Phase.items])
    · rw [hp]; exact Iff.rfl
    · rw [hp]; rfl
    · rw [hp]; rfl
  refine ⟨⟨h'.wired.running, h'.wired.away, h'.wired.handler_given, h'.wired.implmap_given, h'.wired.handler_inj⟩,
    h'.held.moves rfl rfl (fun _ _ => id) (fun _ => .refl _) h'.held.items ?_,
    h'.kept.mono (fun _ => (Core.Keeps.refl _).ages) rfl rfl (fun _ => id) (fun _ => rfl) (fun _ _ => id) fun _ _ => .inl⟩
  intro l' item hitem
  exact (h'.held.live l' item hitem).mono (fun _ => .refl _) (fun _ _ => id) rfl fun _ => id

/-- The epoll that a thread goes into `Run` with is its own, and no loop is found by it yet. -/
theorem Wired.starts {s : State η} (h : Wired s) {l z : Nat} (haway : ¬(s.impl l).phase.Running)
    (hz : (s.impl l).handler = none → z ∉ s.given) : s.implmap ((s.impl l).handler.getD z) = none ∧
      ∀ l', l' ≠ l → (s.impl l').handler ≠ some ((s.impl l).handler.getD z) := by
  cases hh : (s.impl l).handler with
  | some y => exact ⟨h.away l y haway hh, fun l' hne hl' => hne (h.handler_inj l' l y hl' hh)⟩
  | none =>
    refine ⟨?_, fun l' _ hl' => hz hh (h.handler_given l' z hl')⟩
    cases hm : s.implmap z with
    | none => exact hm
    | some l₂ => exact absurd (h.implmap_given z l₂ hm) (hz hh)

theorem Wired.run {s : State η} (h : Wired s) {l x : Nat} {simpl : Impl η} (hx : simpl.handler = some x)
    (hr : simpl.phase.Running) (hnone : s.implmap x = none) (hown : ∀ l', l' ≠ l → (s.impl l').handler ≠ some x)
    (implvector : List Nat) (deleted : List (SocketClose η)) :
    Wired (s.relink l simpl (Function.update s.implmap x (some l)) implvector (x :: s.given) deleted) := by
  refine ⟨?_, ?_, ?_, ?_, ?_⟩
  · intro l'
    rw [relink_impl]
    split
    · next he =>
      rw [he]
      exact fun _ => ⟨x, hx, Function.update_self ..⟩
    · intro hl
      obtain ⟨y, h1, h2⟩ := h.running l' hl
      refine ⟨y, h1, ?_⟩
      show Function.update s.implmap x (some l) y = some l'
      rw [Function.update_of_ne, h2]
      rintro rfl
      rw [hnone] at h2
      cases h2
  · intro l' y
    rw [relink_impl]
    split
    · exact fun hl => absurd hr hl
    · next he =>
      intro hl hy
      show Function.update s.implmap x (some l) y = none
      rw [Function.update_of_ne]
      · exact h.away l' y hl hy
      · rintro rfl
        exact hown l' he hy
  · intro l' y hy
    rw [relink_impl] at hy
    show y ∈ x :: s.given
    split at hy
    · rw [hx] at hy
      rw [← Option.some.inj hy]
      exact List.mem_cons_self
    · exact List.mem_cons_of_mem x (h.handler_given l' y hy)
  · intro y l' hy
    show y ∈ x :: s.given
    by_cases he : y = x
    · rw [he]
      exact List.mem_cons_self
    · have hy : Function.update s.implmap x (some l) y = some l' := hy
      rw [Function.update_of_ne he] at hy
      exact List.mem_cons_of_mem x (h.implmap_given y l' hy)
  · intro l₁ l₂ y h1 h2
    rw [relink_impl] at h1 h2
    split at h1 <;> split at h2
    · next h3 h4 => rw [h3, h4]
    · next h4 =>
      rw [hx] at h1
      rw [← Option.some.inj h1] at h2
      exact absurd h2 (hown l₂ h4)
    · next h3 _ =>
      rw [hx] at h2
      rw [← Option.some.inj h2] at h1
      exact absurd h1 (hown l₁ h3)
    · exact h.handler_inj l₁ l₂ y h1 h2

theorem Inv.run {s : State η} (h : Inv s) (l : Nat) {z : Nat} (hz : (s.impl l).handler = none → z ∉ s.given) :
    Inv (s.run l z) := by
  unfold State.run
  split
  swap
  · exact h
  next hp =>
  have haway : ¬(s.impl l).phase.Running := by rw [hp]; exact id
  obtain ⟨hnone, hown⟩ := h.wired.starts haway hz
  dsimp only
  generalize (s.impl l).handler.getD z = x at hnone hown ⊢
  have hmap : ∀ y l', s.implmap y = some l' → Function.update s.implmap x (some l) y = some l' := by
    intro y l' hy
    rw [Function.update_of_ne, hy]
    rintro rfl
    rw [hnone] at hy
    cases hy
  have hreqs : (s.impl l).phase.reqs = [] := by rw [hp]; rfl
  have hi : (s.impl l).closereqs ++ [] = (s.impl l).closereqs ++ (s.impl l).phase.reqs := by rw [hreqs]
  refine ⟨h.wired.run rfl ?_ hnone hown _ _, h.held.relink hmap (hi ▸ .refl _) rfl,
    h.kept.relink ?_ (hi ▸ .refl _) (fun _ => id) fun cls hc => .inl (hi ▸ hc)⟩
  · exact trivial
  · rw [hp]
    rfl

theorem Inv.stopOne {s : State η} (h : Inv s) (l : Nat) : Inv (s.stopOne l) := by
  have hself : ∀ l', ((s.stopOne l).impl l').phase = (s.impl l').phase ∧
      ((s.stopOne l).impl l').handler = (s.impl l').handler ∧ ((s.stopOne l).impl l').closereqs = (s.impl l').closereqs ∧
      (s.impl l').finishes ⊆ ((s.stopOne l).impl l').finishes := by
    intro l'
    rw [show (s.stopOne l).impl l' = _ from s.impl_setImpl l _ l']
    split
    · next he =>
      rw [he]
      exact ⟨rfl, rfl, rfl, List.subset_cons_self _ _⟩
    · exact ⟨rfl, rfl, rfl, fun _ => id⟩
  refine h.visits ⟨rfl, rfl, rfl, rfl, rfl, rfl, rfl, fun l' => (hself l').1, fun l' => (hself l').2.1,
    fun l' => (hself l').2.2.2, fun l' => ?_⟩
  rw [State.inflight, State.inflight, (hself l').1, (hself l').2.2.1]
  exact .refl _

theorem Inv.stop {s : State η} (h : Inv s) : Inv s.stop := by
  have all : ∀ (ls : List Nat) (s : State η), Inv s → Inv (ls.foldl State.stopOne s) := by
    intro ls
    induction ls with
    | nil => exact fun _ h => h
    | cons l ls ih => exact fun s h => ih _ (h.stopOne l)
  exact all s.implvector s h

/-! ## Runs -/

theorem Inv.init : Inv (State.init : State η) := by
  refine ⟨⟨fun _ hr => hr.elim, fun _ _ _ _ => rfl, ?_, ?_, ?_⟩, ⟨?_, fun _ _ _ => rfl, ?_, ?_, ?_, ?_, ?_⟩,
    ⟨List.nodup_nil, ?_, List.nodup_nil, ?_, ?_, ?_, ?_, ?_⟩⟩
  all_goals simp [State.init, Core.construct, inflight, postingAt, Phase.reqs, Phase.items, Phase.handlingOf]

theorem Inv.step {s : State η} (h : Inv s) {op : Op η} (hop : s.NewEpoll op) : Inv (s.step op) := by
  cases op with
  | openFd k fd => exact h.giveFd k fd
  | accept k fd => exact h.giveFd k fd
  | async k modifies ok => exact h.async k modifies ok
  | close k handler => exact h.close k handler
  | post i => exact h.post i
  | destroy k => exact h.destroy k
  | stop => exact h.stop
  | run l y => exact h.run l hop
  | swap l => exact h.swap l
  | doClose l => exact h.doClose l
  | handled l => exact h.handled l
  | epollWait l items => exact h.epollWait l items
  | waitFailed l => exact h.waitFailed l
  | execOp l => exact h.execOp l
  | turn l => exact h.turn l
  | release l y => exact h.release l hop
  | unlink l => exact h.unlink l

theorem Inv.steps {s : State η} (h : Inv s) {ops : List (Op η)} (hops : s.NewEpolls ops) : Inv (s.steps ops) := by
  induction ops generalizing s with
  | nil => exact h
  | cons op ops ih => exact ih (h.step hops.1) hops.2

/-- An event that a loop still has to execute is about a descriptor that is open, of the socket it was reported for, and
no other loop has an event of that socket. -/
theorem items_live (ops : List (Op η)) (hops : init.NewEpolls ops) {l k gen : Nat}
    (hi : .event k gen ∈ ((init.steps ops).impl l).phase.items) :
    (∃ fd, ((init.steps ops).core k).fd = some fd ∧ (init.steps ops).fds fd = some k) ∧
      ((init.steps ops).core k).gen = gen ∧
      ∀ l' gen', .event k gen' ∈ ((init.steps ops).impl l').phase.items → l' = l ∧ gen' = gen := by
  have h : Inv (init.steps ops) := Inv.init.steps hops
  obtain ⟨hfd, hgen, -, x, hx, -, hm⟩ := h.held.live l _ hi
  obtain ⟨fd, hfd⟩ := Option.isSome_iff_exists.mp hfd
  refine ⟨⟨fd, hfd, h.held.owner k fd hfd⟩, hgen, ?_⟩
  intro l' gen' hi'
  obtain ⟨-, hgen', -, x', hx', -, hm'⟩ := h.held.live l' _ hi'
  rw [hx] at hx'
  rw [← Option.some.inj hx', hm] at hm'
  exact ⟨(Option.some.inj hm').symm, hgen'.symm.trans hgen⟩

/-- A loop that has a descriptor, is stopped and starts again with another epoll, and then has an event of a second
socket, which took the descriptor of the first. -/
def restarted : List (Op Nat) :=
  [.run 0 9, .openFd 5 3, .async 5 true true, .swap 0, .doClose 0, .epollWait 0 [.event 5 1], .close 5 (some 7), .execOp 0,
    .post 0, .turn 0, .swap 0, .doClose 0, .handled 0, .doClose 0, .stop, .epollWait 0 [.finish 0], .execOp 0, .turn 0,
    .release 0 4, .unlink 0, .run 0 11, .openFd 6 3, .async 6 true true, .swap 0, .doClose 0, .epollWait 0 [.event 6 1]]

theorem items_live_restarted :
    (∃ fd, ((init.steps restarted).core 6).fd = some fd ∧ (init.steps restarted).fds fd = some 6) ∧
      ((init.steps restarted).core 6).gen = 1 ∧
      ∀ l' gen', .event 6 gen' ∈ ((init.steps restarted).impl l').phase.items → l' = 0 ∧ gen' = 1 :=
  items_live restarted (by decide) (by decide)

/-- At most one request is made for a descriptor and at most one is carried out. One that is on its way finds the socket
with that descriptor, in the loop of that socket; none is lost but those that a loop deletes when it ends. -/
theorem closes_once (ops : List (Op η)) (hops : init.NewEpolls ops) :
    ((init.steps ops).made.map SocketClose.key).Nodup ∧ ((init.steps ops).done.map SocketClose.key).Nodup ∧
      (∀ cls ∈ (init.steps ops).done, cls ∈ (init.steps ops).made ∧ (init.steps ops).Finished cls) ∧
      (∀ l, ∀ cls ∈ (init.steps ops).inflight l, (init.steps ops).Pending l cls) ∧
      ∀ cls ∈ (init.steps ops).made, cls ∈ (init.steps ops).done ∨ cls ∈ (init.steps ops).deleted ∨
        ∃ l, cls ∈ (init.steps ops).inflight l ∨ ((init.steps ops).impl l).phase.handlingOf = some cls := by
  have h : Inv (init.steps ops) := Inv.init.steps hops
  exact ⟨h.kept.made_nodup, h.kept.done_nodup, h.kept.done_made, h.held.pending, h.kept.accounted⟩

theorem closes_once_restarted :
    ((init.steps restarted).made.map SocketClose.key).Nodup ∧ ((init.steps restarted).done.map SocketClose.key).Nodup ∧
      (∀ cls ∈ (init.steps restarted).done, cls ∈ (init.steps restarted).made ∧ (init.steps restarted).Finished cls) ∧
      (∀ l, ∀ cls ∈ (init.steps restarted).inflight l, (init.steps restarted).Pending l cls) ∧
      ∀ cls ∈ (init.steps restarted).made, cls ∈ (init.steps restarted).done ∨ cls ∈ (init.steps restarted).deleted ∨
        ∃ l, cls ∈ (init.steps restarted).inflight l ∨
          ((init.steps restarted).impl l).phase.handlingOf = some cls :=
  closes_once restarted (by decide)

-- the first request has been carried out
example : (init.steps restarted).done.map SocketClose.key = [(5, 1)] := by decide

end State

end GlobalServer.IoService
