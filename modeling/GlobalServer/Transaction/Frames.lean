import GlobalServer.Base.TimePoolHeap
import GlobalServer.Transaction.Fields

/-!
# The current frame

A transaction keeps a pointer to the message it was last handed. The message
is the one the loop is dispatching as long as the handler runs because of
that dispatch, and no longer: a handler that a timer or a response of a
database has set going reads a message that may be back in its pool.
-/

namespace GlobalServer

open Schedule (Runs Stops)

/-- A handler reads its current frame: the transaction and the message. -/
def Event.readsFrame : Event → Option (Nat × Nat)
  | .co p (.parseMsg (.frame m _) _) => some (p, m)
  | .co p (.curFrame (.frame m _)) => some (p, m)
  | .co p (.woke _ (.frame m _)) => some (p, m)
  | .co p (.onRequest _ (.frame m _) _ _) => some (p, m)
  | _ => none

def Event.isDispatch : Event → Bool
  | .dispatch _ _ _ => true
  | _ => false

namespace App

/-- Of the events that were handed to the transaction, the last was a frame from the loop. -/
def byFrame (t : List Event) (p : Nat) : Bool := t.foldl (fun b e => if e.target = some p then e.isDispatch else b) false

theorem byFrame_concat (t : List Event) (e : Event) (p : Nat) :
    byFrame (t ++ [e]) p = if e.target = some p then e.isDispatch else byFrame t p := by
  simp [byFrame]

/-- The messages are named in the order they are taken, and the one in dispatch is not back in its pool. -/
structure MsgsOk (a : App) : Prop where
  curFrame : ∀ p m, (a.trans p).curFrame = some m → m < a.msgTop
  below : ∀ m frame, a.live.lookup m = some frame → m < a.msgTop
  live : ∀ m, a.loop = .frame m → ∃ frame, a.live.lookup m = some frame
  updating : a.timerPool.updating ≠ none → a.loop = .idle

section
variable {a a' : App} {e : Event}

theorem lookup_filter_ne {l : List (Nat × AppHeadFrame)} {m m' : Nat} :
    (l.filter fun x => decide (x.1 ≠ m)).lookup m' = if m' = m then none else l.lookup m' := by
  induction l with
  | nil => simp
  | cons x l ih =>
    obtain ⟨n, frame⟩ := x
    by_cases hn : n = m
    · subst hn
      rw [List.filter_cons_of_neg (by simp), ih, List.lookup_cons]
      by_cases hm : m' = n
      · simp [hm]
      · simp [hm, beq_false_of_ne hm]
    · rw [List.filter_cons_of_pos (by simpa using hn), List.lookup_cons, List.lookup_cons, ih]
      by_cases hm : m' = n
      · subst hm; simp [hn]
      · simp [beq_false_of_ne hm]

theorem live_new (he : Effect a e a') {frame : AppHeadFrame} (hf : e.frame = some frame) :
    a'.live.lookup a.msgTop = some frame := by
  simp [live_effect he, nextLive, hf]

theorem live_back (he : Effect a e a') {m : Nat} {frame : AppHeadFrame} (hl : a'.live.lookup m = some frame) :
    a.live.lookup m = some frame ∨ m = a.msgTop ∧ e.frame = some frame := by
  rw [live_effect he] at hl
  unfold nextLive at hl
  split at hl
  · rename_i frame' hf
    by_cases hm : m = a.msgTop
    · subst hm
      simp only [List.lookup_cons_self, Option.some.injEq] at hl
      exact Or.inr ⟨rfl, by rw [hf, hl]⟩
    · rw [List.lookup_cons, beq_false_of_ne hm] at hl
      exact Or.inl hl
  · rw [lookup_filter_ne, Option.ite_none_left_eq_some] at hl
    exact Or.inl hl.2
  · exact Or.inl hl

theorem live_kept (he : Effect a e a') {m : Nat} (hm : m < a.msgTop) (hr : ∀ m', e = .recycle m' → m ≠ m') :
    a'.live.lookup m = a.live.lookup m := by
  rw [live_effect he]
  unfold nextLive
  split
  · rw [List.lookup_cons, beq_false_of_ne (Nat.ne_of_lt hm)]
  · rename_i m' hf
    rw [lookup_filter_ne, if_neg (hr m' rfl)]
  · rfl

theorem updating_effect (he : Effect a e a') (hu : a'.timerPool.updating ≠ none) :
    a.timerPool.updating ≠ none ∨ a.loop = .idle := by
  cases he with
  | update hi => exact Or.inr (idle_spec.mp hi).2.1
  | tick hc hup hn ht => exact Or.inl (by simp [hup])
  | fire hc hup hn hp hk hs => exact Or.inl (by simp [hup])
  | dispatch hi hf => obtain ⟨_, _, _, _, _, _, rfl⟩ := hf.rest; exact Or.inl hu
  | nested hc hk hf => obtain ⟨_, _, _, _, _, _, rfl⟩ := hf.rest; exact Or.inl hu
  | suspend hc hk ha hp hs => exact Or.inl (by rwa [← TimerPool.updating_addTimer hp])
  | _ => exact Or.inl hu

theorem msgsOk_effect (h : Sound a) (hm : a.MsgsOk) (he : Effect a e a') : a'.MsgsOk := by
  have htop : a.msgTop ≤ a'.msgTop := by
    rw [msgTop_effect he, nextMsgTop]
    split <;> omega
  refine ⟨?_, ?_, ?_, ?_⟩
  · intro p m hp
    rw [curFrame_effect h he] at hp
    by_cases hf : e.frame.isSome ∧ e.target = some p
    · rw [if_pos hf] at hp
      cases hp
      simp [msgTop_effect he, nextMsgTop, hf.1]
    · rw [if_neg hf] at hp
      exact Nat.lt_of_lt_of_le (hm.curFrame p m hp) htop
  · intro m frame hl
    rcases live_back he hl with hl | ⟨rfl, hf⟩
    · exact Nat.lt_of_lt_of_le (hm.below m frame hl) htop
    · simp [msgTop_effect he, nextMsgTop, hf]
  · intro m hl
    have old : a.loop = .frame m → (∀ m', e = .recycle m' → m ≠ m') → ∃ frame, a'.live.lookup m = some frame := by
      intro hl hr
      obtain ⟨frame, hf⟩ := hm.live m hl
      exact ⟨frame, by rw [live_kept he (hm.below m frame hf) hr, hf]⟩
    rw [loop_effect he] at hl
    cases e with
    | dispatch fd frame target =>
      cases hl
      exact ⟨frame, live_new he rfl⟩
    | mysqlRsp q rsp target => cases hl
    | redisRsp q rsp target => cases hl
    | dispatched => cases hl
    | recycle m' =>
      refine old hl ?_
      rintro _ ⟨⟩ rfl
      cases he with
      | recycle hne => exact hne hl
    | _ => exact old hl nofun
  · intro hu
    have hidle : a.loop = .idle := by
      rcases updating_effect he hu with hu | hi
      · exact hm.updating hu
      · exact hi
    cases he with
    | dispatch hi hf =>
      obtain ⟨_, _, _, _, _, _, rfl⟩ := hf.rest
      exact absurd (idle_spec.mp hi).2.2 hu
    | mysqlNone hi hq hp => exact absurd (idle_spec.mp hi).2.2 hu
    | mysqlRsp hi hq hp hk hs => exact absurd (idle_spec.mp hi).2.2 hu
    | redisNone hi hq hp => exact absurd (idle_spec.mp hi).2.2 hu
    | redisRsp hi hq hp hk hs => exact absurd (idle_spec.mp hi).2.2 hu
    | dispatched hc hl => rfl
    | nested hc hk hf =>
      obtain ⟨_, _, _, _, _, _, rfl⟩ := hf.rest
      exact hidle
    | suspend hc hk ha hp hs => cases ha <;> exact hidle
    | _ => exact hidle

/-- What the running handler reads is the message in dispatch exactly when it runs because of a frame. -/
def Current (t : List Event) (a : App) : Prop :=
  ∀ k, a.running = some k →
    (byFrame t k.trans = true ↔ ∃ m, a.loop = .frame m ∧ (a.trans k.trans).curFrame = some m)

theorem MsgsOk.loop_lt (hm : a.MsgsOk) {m : Nat} (hl : a.loop = .frame m) : m < a.msgTop := by
  obtain ⟨frame, hf⟩ := hm.live m hl
  exact hm.below m frame hf

theorem current_effect {t : List Event} (h : Sound a) (hm : a.MsgsOk) (hi : Current t a) (he : Effect a e a') :
    Current (t ++ [e]) a' := by
  intro k' hk'
  rw [byFrame_concat, curFrame_effect h he]
  rcases running_effect he hk' with ⟨k, hk, htrans, hloop, hframe⟩ | ⟨hnone, ht, -⟩
  · rw [hloop, ← htrans]
    by_cases ht : e.target = some k.trans
    · -- a frame of the handler's own is stored, and its message is not in dispatch
      have hf : e.frame.isSome := by simpa [ht] using hframe
      have hnot : ¬ a.loop = .frame a.msgTop := fun hl => Nat.lt_irrefl _ (hm.loop_lt hl)
      rw [if_pos ht, if_pos ⟨hf, ht⟩]
      constructor
      · intro hd
        cases e with
        | dispatch fd frame target => exact absurd (hloop.symm.trans (loop_effect he)) hnot
        | _ => cases hd
      · rintro ⟨m, hl, hc⟩
        cases hc
        exact absurd hl hnot
    · rw [if_neg ht, if_neg (by simp [ht])]
      exact hi k hk
  · rw [if_pos ht, loop_effect he]
    cases e with
    | dispatch fd frame target => simp [Event.isDispatch, nextLoop, Event.frame, ht]
    | timer shown target =>
      have hl : a.loop = .idle := by
        cases he with
        | tick hc hu hn _ => cases ht
        | fire hc hu hn hp hk hs => exact hm.updating (by simp [hu])
      simp [Event.isDispatch, nextLoop, hl]
    | mysqlRsp q rsp target => simp [Event.isDispatch, nextLoop]
    | redisRsp q rsp target => simp [Event.isDispatch, nextLoop]
    | co p act =>
      cases act with
      | processFrame fd frame target =>
        cases he with
        | nested hc hk hf => simp [running_of_task hc hk] at hnone
        | suspend hc hk ha hp hs => cases ha
        | exit hc hk he hb hs => cases he
      | _ => cases ht
    | _ => cases ht

theorem reads_effect (he : Effect a e a') {p m : Nat} (hr : e.readsFrame = some (p, m)) :
    ∃ pc, a.running = some ⟨p, pc⟩ ∧ (a.trans p).curFrame = some m := by
  cases he with
  | parse hc hk hm hsh hs => cases hr; exact ⟨_, running_of_task hc hk, hm⟩
  | curFrame hc hk hm hsh => cases hr; exact ⟨_, running_of_task hc hk, hm⟩
  | woke hc hk hret hw hs =>
    cases hw with
    | msgActive hm hsh => cases hr; exact ⟨_, running_of_task hc hk, hm⟩
    | _ => cases hr
  | exit hc hk he hb hs =>
    cases he with
    | parse hm hsh => cases hr; exact ⟨_, running_of_task hc hk, hm⟩
    | reply ht hm hsh ho => cases hr; exact ⟨_, running_of_task hc hk, hm⟩
    | silent ht => cases hr
  | suspend hc hk ha hp hs => cases ha <;> cases hr
  | _ => cases hr

end

theorem init_msgsOk (c : Config) : (init c).MsgsOk where
  curFrame := by simp [init, Transaction.new, Transaction.construct]
  below := by simp [init]
  live := by simp [init]
  updating := by simp [init, TimerPool.new]

section
variable {C : List Event → App → Event → Prop} {c : Config} {t : List Event} {a : App}

theorem run_msgsOk (h : Run C c t a) : a.MsgsOk :=
  run_invariant (fun _ a => a.MsgsOk) (init_msgsOk c) (fun _ _ _ _ hs hm _ he => msgsOk_effect hs hm he) h

theorem run_current (h : Run C c t a) : Current t a := by
  have hb := run_invariant (fun t a => a.MsgsOk ∧ Current t a) ⟨init_msgsOk c,
    by simp [Current, running, init, Schedule.init]⟩ ?_ h
  · exact hb.2
  · rintro t a e a' hs ⟨hm, hi⟩ - he
    exact ⟨msgsOk_effect hs hm he, current_effect hs hm hi he⟩

/-- In the state that the events lead to the message is the one in dispatch, and it is not back in its pool. -/
def InDispatch (c : Config) (t : List Event) (m : Nat) : Prop :=
  ∃ a, (init c).replay t = some a ∧ a.loop = .frame m ∧ ∃ frame, a.live.lookup m = some frame

theorem inDispatch_iff (h : Run C c t a) {e : Event} {a' : App} (hst : a.step e = some a') {p m : Nat}
    (hr : e.readsFrame = some (p, m)) : InDispatch c t m ↔ byFrame t p = true := by
  obtain ⟨pc, hk, hm⟩ := reads_effect (step_effect (run_sound h) hst) hr
  have hcur := run_current h _ hk
  simp only [hm, Option.some.injEq] at hcur
  rw [hcur]
  constructor
  · rintro ⟨b, hb, hl, -⟩
    rw [run_replay h, Option.some.injEq] at hb
    subst hb
    exact ⟨m, hl, rfl⟩
  · rintro ⟨m', hl, rfl⟩
    exact ⟨a, run_replay h, hl, (run_msgsOk h).live _ hl⟩

/-- Every frame read in a run is the one in dispatch, and not recycled, exactly when each is read by a handler
that was last handed a frame by the loop. -/
theorem reads_dispatched (h : Run (fun _ _ _ => True) c t a) :
    (∀ t₁ e t₂ p m, t = t₁ ++ e :: t₂ → e.readsFrame = some (p, m) → InDispatch c t₁ m) ↔
      ∀ t₁ e t₂ p m, t = t₁ ++ e :: t₂ → e.readsFrame = some (p, m) → byFrame t₁ p = true := by
  constructor
  · intro hd t₁ e t₂ p m ht hr
    obtain ⟨a₁, a₂, h₁, -, hst⟩ := h.event t₁ e t₂ ht
    exact (inDispatch_iff h₁ hst hr).mp (hd t₁ e t₂ p m ht hr)
  · intro hb t₁ e t₂ p m ht hr
    obtain ⟨a₁, a₂, h₁, -, hst⟩ := h.event t₁ e t₂ ht
    exact (inDispatch_iff h₁ hst hr).mpr (hb t₁ e t₂ p m ht hr)

end

/-- A request is read while it is dispatched. -/
def requestRead : List Event := [.dispatch 3 { cmd := 7 } (some 0), .co 0 (.parseMsg (.frame 0 { cmd := 7 }) true)]

theorem reads_dispatched_one : ∃ a, Run (fun _ _ _ => True) smallConfig requestRead a ∧
    ∀ t₁ e t₂ p m, requestRead = t₁ ++ e :: t₂ → e.readsFrame = some (p, m) → InDispatch smallConfig t₁ m := by
  obtain ⟨a, ha⟩ : ∃ a, (init smallConfig).replay requestRead = some a := Option.isSome_iff_exists.mp (by decide)
  have hrun : Run (fun _ _ _ => True) smallConfig ([] ++ requestRead) a := replay_run (fun _ _ _ _ => trivial) .nil ha
  refine ⟨a, hrun, (reads_dispatched hrun).mpr ?_⟩
  intro t₁ e t₂ p m ht hr
  match t₁ with
  | [] =>
    cases ht
    cases hr
  | [x] =>
    cases ht
    cases hr
    rfl
  | x :: y :: t₁ => simp [requestRead] at ht

/-- A handler queries MySQL, and its request's message goes back to its pool. The response has come. -/
def answeredByMysql : List Event :=
  [.dispatch 3 { cmd := 8 } (some 0), .co 0 (.parseMsg (.frame 0 { cmd := 8 }) true), .co 0 (.mysqlQuery 1 0), .dispatched,
    .recycle 0, .mysqlRsp 0 { transId := 1, errCode := 0, numFields := 1, rows := 0 } (some 0),
    .co 0 (.woke .active (.mysql 0 { transId := 1, errCode := 0, numFields := 1, rows := 0 }))]

/-- The answer to a request is made of what happens to be where the request's message was. -/
theorem reads_recycled : ∃ t a, Run (fun _ _ _ => True) smallConfig t a ∧
    ¬ ∀ t₁ e t₂ p m, t = t₁ ++ e :: t₂ → e.readsFrame = some (p, m) → InDispatch smallConfig t₁ m := by
  obtain ⟨a, ha⟩ : ∃ a, (init smallConfig).replay (answeredByMysql ++
      [.co 0 (.onRequest 0 (.frame 0 { reqRandom := 5 }) 0
        (some (9, { srcZone := 1, srcSvrType := 1, srcInstId := 1, srcTransId := 1, cmd := 9, reqRandom := 5 })))]) = some a :=
    Option.isSome_iff_exists.mp (by decide)
  refine ⟨_, a, replay_run (fun _ _ _ _ => trivial) .nil ha, fun hd => ?_⟩
  obtain ⟨b, hb, -, frame, hl⟩ := hd answeredByMysql _ [] 0 0 rfl rfl
  have hempty : ((init smallConfig).replay answeredByMysql).map App.live = some [] := by decide
  rw [hb, Option.map_some, Option.some.injEq] at hempty
  simp [hempty] at hl

end App

end GlobalServer
