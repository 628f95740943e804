import GlobalServer.Lib.RoundRobin
import GlobalServer.Socket.IoServiceSound

/-!
# Turns and shares of the loops

A request that has been posted to a loop is carried out in the next turn of it,
whatever the other threads do. As long as no loop starts or ends, every loop is
given its share of the sockets, up to one.
-/

namespace GlobalServer.IoService

variable {η : Type}

/-- The loop whose thread takes the step. -/
def Op.loop : Op η → Option Nat
  | .run l _ => some l
  | .swap l => some l
  | .doClose l => some l
  | .handled l => some l
  | .epollWait l _ => some l
  | .waitFailed l => some l
  | .execOp l => some l
  | .turn l => some l
  | .release l _ => some l
  | .unlink l => some l
  | _ => none

/-- What a step of the loop's own thread makes of it, and what has been carried out by it. -/
inductive Impl.Goes (simpl : Impl η) : Op η → Impl η → List (SocketClose η) → Prop
  | run (l h x : Nat) (here : simpl.phase = .idle) :
    Goes simpl (.run l h) { simpl with handler := some x, phase := .top } []
  | swap (l : Nat) (here : simpl.phase = .top) :
    Goes simpl (.swap l) { simpl with closereqs := [], phase := .closing simpl.closereqs } []
  | closed (l : Nat) (here : simpl.phase = .closing []) : Goes simpl (.doClose l) { simpl with phase := .wait } []
  | close (l : Nat) (cls : SocketClose η) (closereqs : List (SocketClose η))
    (here : simpl.phase = .closing (cls :: closereqs)) :
    Goes simpl (.doClose l) { simpl with phase := .handling cls closereqs } []
  | handled (l : Nat) (cls : SocketClose η) (closereqs : List (SocketClose η))
    (here : simpl.phase = .handling cls closereqs) :
    Goes simpl (.handled l) { simpl with phase := .closing closereqs } [cls]
  | epollWait (l : Nat) (items : List Item) (here : simpl.phase = .wait) :
    Goes simpl (.epollWait l items) { simpl with phase := .batch items false } []
  | waitFailed (l : Nat) (here : simpl.phase = .wait) : Goes simpl (.waitFailed l) { simpl with phase := .leaving } []
  | execOp (l : Nat) (item : Item) (items : List Item) (brk brk' : Bool) (finishes : List Nat)
    (here : simpl.phase = .batch (item :: items) brk) :
    Goes simpl (.execOp l) { simpl with finishes, phase := .batch items brk' } []
  | leave (l : Nat) (here : simpl.phase = .batch [] true) : Goes simpl (.turn l) { simpl with phase := .leaving } []
  | turn (l : Nat) (here : simpl.phase = .batch [] false) : Goes simpl (.turn l) { simpl with phase := .top } []
  | release (l h : Nat) (here : simpl.phase = .leaving) :
    Goes simpl (.release l h) { handler := some h, closereqs := [], finishes := [], phase := .released } []
  | unlink (l : Nat) (here : simpl.phase = .released) : Goes simpl (.unlink l) { simpl with phase := .idle } []

namespace State

theorem impl_setPhase (s : State η) (l : Nat) (phase : Phase η) (l' : Nat) :
    (s.setPhase l phase).impl l' = if l' = l then { s.impl l with phase } else s.impl l' := s.impl_setImpl l _ l'

theorem async_impl (s : State η) (k : Nat) (modifies ok : Bool) :
    (s.async k modifies ok).impl = s.impl ∧ (s.async k modifies ok).done = s.done := by
  rcases s.async_core k modifies ok with he | ⟨c, idx, as, he, -⟩ <;> rw [he] <;> exact ⟨rfl, rfl⟩

theorem close_impl (s : State η) (k : Nat) (handler : Option η) :
    (s.close k handler).impl = s.impl ∧ (s.close k handler).done = s.done := by
  unfold State.close
  dsimp only
  split
  · exact ⟨rfl, rfl⟩
  by_cases hb : (s.core k).block = true
  · rw [if_pos hb]
    split <;> exact ⟨rfl, rfl⟩
  · rw [if_neg hb]
    split <;> exact ⟨rfl, rfl⟩

theorem giveFd_impl (s : State η) (k fd : Nat) : (s.giveFd k fd).impl = s.impl ∧ (s.giveFd k fd).done = s.done := by
  unfold giveFd
  dsimp only
  split <;> exact ⟨rfl, rfl⟩

theorem destroy_impl (s : State η) (k : Nat) : (s.destroy k).impl = s.impl ∧ (s.destroy k).done = s.done := by
  unfold destroy
  dsimp only
  split <;> exact ⟨rfl, rfl⟩

/-- What the steps of others leave of a loop: they only post requests to it, and operations that end it. -/
structure Impl.Leaves (simpl simpl' : Impl η) : Prop where
  phase : simpl'.phase = simpl.phase
  closereqs : simpl.closereqs ⊆ simpl'.closereqs

theorem Impl.Leaves.refl (simpl : Impl η) : Impl.Leaves simpl simpl := ⟨rfl, fun _ => id⟩

theorem post_leaves (s : State η) (i l : Nat) : Impl.Leaves (s.impl l) ((s.post i).impl l) := by
  unfold State.post
  split
  · exact .refl _
  · next l' cls hi =>
    rw [show (State.impl _) l = _ from s.impl_setImpl l' _ l]
    split
    · next he =>
      rw [he]
      exact ⟨rfl, List.subset_append_left _ _⟩
    · exact .refl _

theorem stop_leaves (s : State η) (l : Nat) : Impl.Leaves (s.impl l) (s.stop.impl l) ∧ s.stop.done = s.done := by
  have all : ∀ (ls : List Nat) (s : State η), Impl.Leaves (s.impl l) ((ls.foldl stopOne s).impl l) ∧
      (ls.foldl stopOne s).done = s.done := by
    intro ls
    induction ls with
    | nil => exact fun s => ⟨.refl _, rfl⟩
    | cons l' ls ih =>
      intro s
      obtain ⟨h1, h2⟩ := ih (s.stopOne l')
      have hone : Impl.Leaves (s.impl l) ((s.stopOne l').impl l) := by
        rw [show (s.stopOne l').impl l = _ from s.impl_setImpl l' _ l]
        split
        · next he => rw [he]; exact ⟨rfl, fun _ => id⟩
        · exact .refl _
      exact ⟨⟨h1.phase.trans hone.phase, List.Subset.trans hone.closereqs h1.closereqs⟩, h2⟩
  exact all s.implvector s

/-- A step of a loop's thread does nothing, or takes the loop on. -/
theorem loop_cases (s : State η) {op : Op η} {l : Nat} (hop : op.loop = some l) : s.step op = s ∨
    ∃ simpl done, (s.impl l).Goes op simpl done ∧ (s.step op).impl = Function.update s.impl l simpl ∧
      (s.step op).done = done ++ s.done := by
  cases op with
  | openFd | accept | async | close | post | destroy | stop => cases hop
  | run l h =>
    obtain rfl := Option.some.inj hop
    rw [show s.step (.run l h) = s.run l h from rfl, State.run]
    split
    · next hp => exact .inr ⟨_, _, .run l h _ hp, rfl, rfl⟩
    · exact .inl rfl
  | swap l =>
    obtain rfl := Option.some.inj hop
    rw [show s.step (.swap l) = s.swap l from rfl, State.swap]
    split
    · next hp => exact .inr ⟨_, _, .swap l hp, rfl, rfl⟩
    · exact .inl rfl
  | doClose l =>
    obtain rfl := Option.some.inj hop
    rw [show s.step (.doClose l) = s.doClose l from rfl, State.doClose]
    split
    · next hp => exact .inr ⟨_, _, .closed l hp, rfl, rfl⟩
    · next hp => exact .inr ⟨_, _, .close l _ _ hp, rfl, rfl⟩
    · exact .inl rfl
  | handled l =>
    obtain rfl := Option.some.inj hop
    rw [show s.step (.handled l) = s.handled l from rfl, State.handled]
    split
    · next hp => exact .inr ⟨_, _, .handled l _ _ hp, rfl, rfl⟩
    · exact .inl rfl
  | epollWait l items =>
    obtain rfl := Option.some.inj hop
    rw [show s.step (.epollWait l items) = s.epollWait l items from rfl, State.epollWait]
    split
    · next hp =>
      split
      · exact .inr ⟨_, _, .epollWait l items hp, rfl, rfl⟩
      · exact .inl rfl
    · exact .inl rfl
  | waitFailed l =>
    obtain rfl := Option.some.inj hop
    rw [show s.step (.waitFailed l) = s.waitFailed l from rfl, State.waitFailed]
    split
    · next hp => exact .inr ⟨_, _, .waitFailed l hp, rfl, rfl⟩
    · exact .inl rfl
  | execOp l =>
    obtain rfl := Option.some.inj hop
    rw [show s.step (.execOp l) = s.execOp l from rfl, State.execOp]
    split
    · next hp => exact .inr ⟨_, _, .execOp l _ _ _ _ _ hp, rfl, rfl⟩
    · next hp => exact .inr ⟨_, _, .execOp l _ _ _ _ _ hp, rfl, rfl⟩
    · exact .inl rfl
  | turn l =>
    obtain rfl := Option.some.inj hop
    rw [show s.step (.turn l) = s.turn l from rfl, State.turn]
    split
    · next hp => exact .inr ⟨_, _, .leave l hp, rfl, rfl⟩
    · next hp => exact .inr ⟨_, _, .turn l hp, rfl, rfl⟩
    · exact .inl rfl
  | release l h =>
    obtain rfl := Option.some.inj hop
    rw [show s.step (.release l h) = s.release l h from rfl, State.release]
    split
    · next hp => exact .inr ⟨_, _, .release l h hp, rfl, rfl⟩
    · exact .inl rfl
  | unlink l =>
    obtain rfl := Option.some.inj hop
    rw [show s.step (.unlink l) = s.unlink l from rfl, State.unlink]
    split
    · next hp => exact .inr ⟨_, _, .unlink l hp, rfl, rfl⟩
    · exact .inl rfl

theorem loop_leaves (s : State η) {op : Op η} {l l' : Nat} (hop : op.loop = some l') (hne : l ≠ l') :
    (s.step op).impl l = s.impl l := by
  rcases s.loop_cases hop with h | ⟨simpl, done, -, h, -⟩
  · rw [h]
  · rw [h, Function.update_of_ne hne]

theorem step_leaves (s : State η) {op : Op η} {l : Nat} (hop : op.loop ≠ some l) :
    Impl.Leaves (s.impl l) ((s.step op).impl l) := by
  cases ho : op.loop with
  | some l' =>
    rw [s.loop_leaves ho fun he => hop (by rw [ho, he])]
    exact .refl _
  | none =>
    cases op with
    | openFd k fd => rw [show s.step (.openFd k fd) = s.giveFd k fd from rfl, (s.giveFd_impl k fd).1]; exact .refl _
    | accept k fd => rw [show s.step (.accept k fd) = s.giveFd k fd from rfl, (s.giveFd_impl k fd).1]; exact .refl _
    | async k m ok => rw [show s.step (.async k m ok) = s.async k m ok from rfl, (s.async_impl k m ok).1]; exact .refl _
    | close k x => rw [show s.step (.close k x) = s.close k x from rfl, (s.close_impl k x).1]; exact .refl _
    | destroy k => rw [show s.step (.destroy k) = s.destroy k from rfl, (s.destroy_impl k).1]; exact .refl _
    | post i => exact s.post_leaves i l
    | stop => exact (s.stop_leaves l).1
    | run | swap | doClose | handled | epollWait | waitFailed | execOp | turn | release | unlink => cases ho

theorem step_done (s : State η) (op : Op η) : s.done ⊆ (s.step op).done := by
  cases ho : op.loop with
  | some l =>
    rcases s.loop_cases ho with h | ⟨simpl, done, -, -, h⟩ <;> rw [h]
    · exact fun _ => id
    · exact List.subset_append_right _ _
  | none =>
    cases op with
    | openFd k fd => rw [show s.step (.openFd k fd) = s.giveFd k fd from rfl, (s.giveFd_impl k fd).2]; exact fun _ => id
    | accept k fd => rw [show s.step (.accept k fd) = s.giveFd k fd from rfl, (s.giveFd_impl k fd).2]; exact fun _ => id
    | async k m ok => rw [show s.step (.async k m ok) = s.async k m ok from rfl, (s.async_impl k m ok).2]; exact fun _ => id
    | close k x => rw [show s.step (.close k x) = s.close k x from rfl, (s.close_impl k x).2]; exact fun _ => id
    | destroy k => rw [show s.step (.destroy k) = s.destroy k from rfl, (s.destroy_impl k).2]; exact fun _ => id
    | post i =>
      rw [show s.step (.post i) = s.post i from rfl, State.post]
      split <;> exact fun _ => id
    | stop => rw [show s.step .stop = s.stop from rfl, (s.stop_leaves 0).2]; exact fun _ => id
    | run | swap | doClose | handled | epollWait | waitFailed | execOp | turn | release | unlink => cases ho

/-! ## One turn -/

/-- A request that a loop carries out before it waits again. -/
def Due (s : State η) (l : Nat) (cls : SocketClose η) : Prop :=
  cls ∈ s.done ∨ ((s.impl l).phase = .top ∧ cls ∈ (s.impl l).closereqs) ∨ cls ∈ (s.impl l).phase.reqs ∨
    (s.impl l).phase.handlingOf = some cls

theorem Due.step {s : State η} {l : Nat} {cls : SocketClose η} (h : s.Due l cls) (op : Op η) : (s.step op).Due l cls := by
  rcases h with h | h
  · exact .inl (s.step_done op h)
  by_cases hop : op.loop = some l
  swap
  · have hl := s.step_leaves hop
    rw [Due, hl.phase]
    rcases h with ⟨h1, h2⟩ | h
    · exact .inr (.inl ⟨h1, hl.closereqs h2⟩)
    · exact .inr (.inr h)
  rcases s.loop_cases hop with hs | ⟨simpl, done, hg, hi, hd⟩
  · rw [hs]
    exact .inr h
  rw [Due, hi, hd, Function.update_self]
  cases hg with
  | swap l hp =>
    rw [hp] at h
    rcases h with ⟨-, h⟩ | h | h
    · exact .inr (.inr (.inl h))
    · cases h
    · cases h
  | close l cls' closereqs hp =>
    rw [hp] at h
    rcases h with ⟨h, -⟩ | h | h
    · cases h
    · rcases List.mem_cons.mp h with rfl | h
      · exact .inr (.inr (.inr rfl))
      · exact .inr (.inr (.inl h))
    · cases h
  | handled l cls' closereqs hp =>
    rw [hp] at h
    rcases h with ⟨h, -⟩ | h | h
    · cases h
    · exact .inr (.inr (.inl h))
    · rw [← Option.some.inj h]
      exact .inl List.mem_cons_self
  -- in all other places there is no request
  | run _ _ _ hp | closed _ hp | epollWait _ _ hp | waitFailed _ hp | execOp _ _ _ _ _ _ hp | leave _ hp | turn _ hp
  | release _ _ hp | unlink _ hp =>
    rw [hp] at h
    rcases h with ⟨h, -⟩ | h | h <;> cases h

theorem Due.steps {s : State η} {l : Nat} {cls : SocketClose η} (h : s.Due l cls) (ops : List (Op η)) :
    (s.steps ops).Due l cls := by
  induction ops generalizing s with
  | nil => exact h
  | cons op ops ih => exact ih (h.step op)

/-- What is posted to a loop at the top of its turn is carried out before the loop waits for events again, whatever the
other threads do meanwhile. -/
theorem close_in_turn (s : State η) {l : Nat} (hp : (s.impl l).phase = .top) (ops : List (Op η))
    (hw : ((s.steps ops).impl l).phase = .wait) : ∀ cls ∈ (s.impl l).closereqs, cls ∈ (s.steps ops).done := by
  intro cls hc
  have hdue : s.Due l cls := .inr (.inl ⟨hp, hc⟩)
  rcases hdue.steps ops with h | ⟨h, -⟩ | h | h
  · exact h
  all_goals
    rw [hw] at h
    cases h

/-- The request of a socket that was closed while its loop waited. -/
theorem close_in_turn_closed :
    let s : State Nat := init.steps [.run 0 9, .openFd 5 3, .async 5 true true, .swap 0, .doClose 0, .close 5 (some 7),
      .post 0, .epollWait 0 [], .turn 0]
    ∀ cls ∈ (s.impl 0).closereqs, cls ∈ (s.steps [.swap 0, .doClose 0, .handled 0, .doClose 0]).done :=
  close_in_turn _ rfl [.swap 0, .doClose 0, .handled 0, .doClose 0] rfl

/-! ## Shares -/

/-- What a step does to the list of loops when none starts or ends. -/
structure Deals (s s' : State η) : Prop where
  implvector : s'.implvector = s.implvector
  assigned : (s'.implidx = s.implidx ∧ s'.assigned = s.assigned) ∨
    ∃ l, s.implvector[(s.implidx + 1) % 2 ^ 32 % s.implvector.length]? = some l ∧ s'.implidx = s.implidx + 1 ∧
      s'.assigned = l :: s.assigned

theorem Deals.refl (s : State η) : s.Deals s := ⟨rfl, .inl ⟨rfl, rfl⟩⟩

theorem assign_deals (s : State η) (k : Nat) : s.Deals (s.assign k) := by
  unfold assign
  split
  · exact ⟨rfl, .inl ⟨rfl, rfl⟩⟩
  · next l hl => exact ⟨rfl, .inr ⟨l, hl, rfl, rfl⟩⟩

theorem ctlEpoll_deals (s : State η) (k : Nat) (add ok : Bool) : s.Deals (s.ctlEpoll k add ok).1 := by
  have hd : s.Deals (if add ∧ (s.core k).epoll = none then s.assign k else s) := by
    split
    · exact s.assign_deals k
    · exact ⟨rfl, .inl ⟨rfl, rfl⟩⟩
  unfold ctlEpoll
  dsimp only
  generalize (if add ∧ (s.core k).epoll = none then s.assign k else s) = s₁ at hd ⊢
  split
  · exact ⟨hd.implvector, hd.assigned⟩
  · exact hd

theorem async_deals (s : State η) (k : Nat) (modifies ok : Bool) : s.Deals (s.async k modifies ok) := by
  unfold async
  dsimp only
  split
  · exact ⟨rfl, .inl ⟨rfl, rfl⟩⟩
  split
  · exact ⟨rfl, .inl ⟨rfl, rfl⟩⟩
  · have hd := (s.setCore k { s.core k with block := false, bind := true }).ctlEpoll_deals k (!(s.core k).bind) ok
    split
    · exact ⟨hd.implvector, hd.assigned⟩
    · exact ⟨hd.implvector, hd.assigned⟩

theorem step_deals (s : State η) {op : Op η} (h : ∀ l h, op ≠ .run l h ∧ op ≠ .unlink l) : s.Deals (s.step op) := by
  cases op with
  | run l y => exact absurd rfl (h l y).1
  | unlink l => exact absurd rfl (h l 0).2
  | async k modifies ok => exact s.async_deals k modifies ok
  | openFd k fd =>
    show s.Deals (s.giveFd k fd)
    unfold State.giveFd
    dsimp only
    split <;> exact ⟨rfl, .inl ⟨rfl, rfl⟩⟩
  | accept k fd =>
    show s.Deals (s.giveFd k fd)
    unfold State.giveFd
    dsimp only
    split <;> exact ⟨rfl, .inl ⟨rfl, rfl⟩⟩
  | close k handler =>
    show s.Deals (s.close k handler)
    unfold State.close
    dsimp only
    split
    · exact ⟨rfl, .inl ⟨rfl, rfl⟩⟩
    by_cases hb : (s.core k).block = true
    · rw [if_pos hb]
      split <;> exact ⟨rfl, .inl ⟨rfl, rfl⟩⟩
    · rw [if_neg hb]
      split <;> exact ⟨rfl, .inl ⟨rfl, rfl⟩⟩
  | post i =>
    show s.Deals (s.post i)
    unfold State.post
    split <;> exact ⟨rfl, .inl ⟨rfl, rfl⟩⟩
  | destroy k =>
    show s.Deals (s.destroy k)
    unfold State.destroy
    dsimp only
    split <;> exact ⟨rfl, .inl ⟨rfl, rfl⟩⟩
  | stop =>
    have all : ∀ (ls : List Nat) (s : State η), s.Deals (ls.foldl stopOne s) := by
      intro ls
      induction ls with
      | nil => exact .refl
      | cons l ls ih => exact fun s => ⟨(ih (s.stopOne l)).implvector, (ih (s.stopOne l)).assigned⟩
    exact all s.implvector s
  | swap l =>
    show s.Deals (s.swap l)
    unfold State.swap
    split <;> exact ⟨rfl, .inl ⟨rfl, rfl⟩⟩
  | doClose l =>
    show s.Deals (s.doClose l)
    unfold State.doClose
    split <;> exact ⟨rfl, .inl ⟨rfl, rfl⟩⟩
  | handled l =>
    show s.Deals (s.handled l)
    unfold State.handled
    split <;> exact ⟨rfl, .inl ⟨rfl, rfl⟩⟩
  | epollWait l items =>
    show s.Deals (s.epollWait l items)
    unfold State.epollWait
    split
    · split <;> exact ⟨rfl, .inl ⟨rfl, rfl⟩⟩
    · exact ⟨rfl, .inl ⟨rfl, rfl⟩⟩
  | waitFailed l =>
    show s.Deals (s.waitFailed l)
    unfold State.waitFailed
    split <;> exact ⟨rfl, .inl ⟨rfl, rfl⟩⟩
  | execOp l =>
    show s.Deals (s.execOp l)
    unfold State.execOp
    split <;> exact ⟨rfl, .inl ⟨rfl, rfl⟩⟩
  | turn l =>
    show s.Deals (s.turn l)
    unfold State.turn
    split <;> exact ⟨rfl, .inl ⟨rfl, rfl⟩⟩
  | release l y =>
    show s.Deals (s.release l y)
    unfold State.release
    split <;> exact ⟨rfl, .inl ⟨rfl, rfl⟩⟩

theorem steps_dealt (s : State η) (ops : List (Op η)) (h : ∀ op ∈ ops, ∀ l h, op ≠ .run l h ∧ op ≠ .unlink l)
    (hidx : s.implidx + ops.length < 2 ^ 32) : ∃ n ≤ ops.length, (s.steps ops).implidx = s.implidx + n ∧
      (s.steps ops).assigned = (RoundRobin.dealt s.implvector (s.implidx + 1) n).reverse ++ s.assigned := by
  induction ops generalizing s with
  | nil => exact ⟨0, Nat.le_refl 0, rfl, rfl⟩
  | cons op ops ih =>
    have hd := s.step_deals (h op List.mem_cons_self)
    rw [List.length_cons] at hidx
    rcases hd.assigned with ⟨h1, h2⟩ | ⟨l, hl, h1, h2⟩
    · obtain ⟨n, hn, h3, h4⟩ := ih (s.step op) (fun o ho => h o (List.mem_cons_of_mem _ ho)) (by omega)
      rw [hd.implvector, h1, h2] at h4
      exact ⟨n, Nat.le_succ_of_le hn, h3.trans (by rw [h1]), h4⟩
    · obtain ⟨n, hn, h3, h4⟩ := ih (s.step op) (fun o ho => h o (List.mem_cons_of_mem _ ho)) (by omega)
      refine ⟨n + 1, Nat.succ_le_succ hn, h3.trans (by rw [h1]; omega), ?_⟩
      have hmod : (s.implidx + 1) % 2 ^ 32 = s.implidx + 1 := Nat.mod_eq_of_lt (by omega)
      rw [hmod] at hl
      rw [show s.steps (op :: ops) = (s.step op).steps ops from rfl, h4, hd.implvector, h1, h2, RoundRobin.dealt, hl,
        Option.toList_some, List.singleton_append, List.reverse_cons, List.append_assoc, List.singleton_append]

/-- Each thread that runs is in the list of loops once. -/
structure Linked (s : State η) : Prop where
  nodup : s.implvector.Nodup
  running : ∀ l ∈ s.implvector, (s.impl l).phase ≠ .idle

theorem step_phase_ne_idle (s : State η) {op : Op η} {l : Nat} (h : (s.impl l).phase ≠ .idle) (hop : op ≠ .unlink l) :
    ((s.step op).impl l).phase ≠ .idle := by
  by_cases ho : op.loop = some l
  swap
  · rw [(s.step_leaves ho).phase]
    exact h
  rcases s.loop_cases ho with hs | ⟨simpl, done, hg, hi, -⟩
  · rw [hs]
    exact h
  rw [hi, Function.update_self]
  cases hg with
  | unlink l' hp => exact absurd (congrArg Op.unlink (Option.some.inj ho)) hop
  | run | swap | closed | close | handled | epollWait | waitFailed | execOp | leave | turn | release => exact nofun

theorem Linked.step {s : State η} (h : s.Linked) (op : Op η) : (s.step op).Linked := by
  by_cases hop : ∀ l h, op ≠ .run l h ∧ op ≠ .unlink l
  · have hv := (s.step_deals hop).implvector
    refine ⟨hv ▸ h.nodup, fun l hl => s.step_phase_ne_idle (h.running l (hv ▸ hl)) (hop l 0).2⟩
  cases op with
  | run m y =>
    show (s.run m y).Linked
    unfold State.run
    split
    swap
    · exact h
    next hp =>
    constructor
    · refine List.nodup_append.mpr ⟨h.nodup, List.nodup_singleton m, ?_⟩
      intro l hl l' hl' he
      rw [he, List.mem_singleton.mp hl'] at hl
      exact h.running m hl hp
    · intro l hl
      rw [show (State.impl _) l = _ from s.impl_setImpl m _ l]
      split
      · exact nofun
      · next hne =>
        rcases List.mem_append.mp hl with hl | hl
        · exact h.running l hl
        · exact absurd (List.mem_singleton.mp hl) hne
  | unlink m =>
    show (s.unlink m).Linked
    unfold State.unlink
    split
    swap
    · exact h
    · constructor
      · exact h.nodup.erase m
      · intro l hl
        obtain ⟨hne, hl⟩ := (h.nodup.mem_erase_iff).mp hl
        rw [show (State.impl _) l = _ from s.impl_setPhase m _ l, if_neg hne]
        exact h.running l hl
  | openFd | accept | async | close | post | destroy | stop | swap | doClose | handled | epollWait | waitFailed |
      execOp | turn | release => exact absurd (fun _ _ => ⟨nofun, nofun⟩) hop

theorem Linked.steps {s : State η} (h : s.Linked) (ops : List (Op η)) : (s.steps ops).Linked := by
  induction ops generalizing s with
  | nil => exact h
  | cons op ops ih => exact ih (h.step op)

/-- While no loop starts or ends, sockets are given to the loops that run, to each as many as to any other, up to one. -/
theorem assigned_balanced (ops₀ ops : List (Op η)) (h : ∀ op ∈ ops, ∀ l h, op ≠ .run l h ∧ op ≠ .unlink l)
    (hidx : (init.steps ops₀).implidx + ops.length < 2 ^ 32) :
    ∃ new, ((init.steps ops₀).steps ops).assigned = new ++ (init.steps ops₀).assigned ∧
      (∀ l ∈ new, l ∈ (init.steps ops₀).implvector) ∧
      ∀ l ∈ (init.steps ops₀).implvector, ∀ l' ∈ (init.steps ops₀).implvector, new.count l ≤ new.count l' + 1 := by
  have hlinked : (init.steps ops₀).Linked := Linked.steps ⟨List.nodup_nil, by simp [init]⟩ ops₀
  obtain ⟨n, -, -, hassigned⟩ := (init.steps ops₀).steps_dealt ops h hidx
  refine ⟨_, hassigned, ?_, ?_⟩
  · intro l hl
    exact RoundRobin.mem_of_mem_dealt (List.mem_reverse.mp hl)
  · intro l _ l' hl'
    rw [List.count_reverse, List.count_reverse]
    exact RoundRobin.count_dealt hlinked.nodup hl' n _

theorem assigned_balanced_two :
    let s : State Nat := init.steps [.run 0 9, .run 1 10, .openFd 5 3, .openFd 6 4]
    ∃ new, (s.steps [.async 5 true true, .async 6 true true]).assigned = new ++ s.assigned ∧
      (∀ l ∈ new, l ∈ s.implvector) ∧ ∀ l ∈ s.implvector, ∀ l' ∈ s.implvector, new.count l ≤ new.count l' + 1 :=
  assigned_balanced [.run 0 9, .run 1 10, .openFd 5 3, .openFd 6 4] [.async 5 true true, .async 6 true true]
    (by simp) (by decide)

end State

end GlobalServer.IoService
