import GlobalServer.Transaction.Sound

/-!
# What an event does to the parts of the state

For the loop, the messages and the requests the event alone says what becomes
of them. Of the transactions only the one the event is handed to and the one
that runs change.
-/

namespace GlobalServer

open Schedule (Runs Stops)

/-- The transaction an event is handed to. -/
def Event.target : Event → Option Nat
  | .timer _ target => target
  | .dispatch _ _ target => target
  | .mysqlRsp _ _ target => target
  | .redisRsp _ _ target => target
  | .co _ (.processFrame _ _ target) => target
  | _ => none

/-- The frame that an event makes a message of. -/
def Event.frame : Event → Option AppHeadFrame
  | .dispatch _ frame _ => some frame
  | .co _ (.processFrame _ frame _) => some frame
  | _ => none

namespace App

variable {a a' : App} {e : Event}

@[simp] theorem insertActive_trans (a : App) (i : UInt32) (p : Nat) : (a.insertActive i p).trans = a.trans := by
  unfold insertActive
  split <;> rfl

@[simp] theorem insertActive_schedule (a : App) (i : UInt32) (p : Nat) :
    (a.insertActive i p).schedule = a.schedule := by
  unfold insertActive
  split <;> rfl

/-- What the loop is at after an event. -/
def nextLoop (a : App) : Event → Loop
  | .dispatch _ _ _ => .frame a.msgTop
  | .mysqlRsp q rsp _ => .mysql q rsp
  | .redisRsp q rsp _ => .redis q rsp
  | .dispatched => .idle
  | _ => a.loop

/-- The messages after an event. -/
def nextLive (a : App) (e : Event) : List (Nat × AppHeadFrame) :=
  match e.frame, e with
  | some frame, _ => (a.msgTop, frame) :: a.live
  | none, .recycle m => a.live.filter fun l => decide (l.1 ≠ m)
  | none, _ => a.live

def nextMsgTop (a : App) (e : Event) : Nat := if e.frame.isSome then a.msgTop + 1 else a.msgTop

theorem Framed.rest {fd : Int} {frame : AppHeadFrame} {m : Nat} {target : Option Nat}
    (hf : Framed a fd frame m target a') :
    ∃ trans top active buckets schedule generator, a' = { a with
      trans := trans, transTop := top, activeTransMap := active, transBucketMap := buckets, schedule := schedule
      transIdGenerator := generator } := by
  cases hf with
  | none hf => exact ⟨_, _, _, _, _, _, rfl⟩
  | reject hd hp hr => exact ⟨_, _, _, _, _, _, rfl⟩
  | resume hc hd hp hr hk hs => exact ⟨_, _, _, _, _, _, rfl⟩
  | store hc hd hp hr => exact ⟨_, _, _, _, _, _, rfl⟩
  | @start p id c s hc hd hn hid hs =>
    obtain ⟨map, hins, -⟩ := insertActive_eq
      ((c.generatorTransId.setTrans p { started a (c.trans p) fd frame m with coId := id }).setSchedule s) a.transIdGenerator p
    rw [hins, hn.constructed.eq]
    exact ⟨_, _, _, _, _, _, rfl⟩
  | lost hc hd hn =>
    rw [hn.constructed.eq]
    exact ⟨_, _, _, _, _, _, rfl⟩

theorem loop_effect (he : Effect a e a') : a'.loop = a.nextLoop e := by
  cases he with
  | dispatch hi hf => obtain ⟨_, _, _, _, _, _, rfl⟩ := hf.rest; rfl
  | nested hc hk hf => obtain ⟨_, _, _, _, _, _, rfl⟩ := hf.rest; rfl
  | suspend hc hk ha hp hs => cases ha <;> rfl
  | exit hc hk he hb hs => cases he <;> rfl
  | _ => rfl

theorem live_effect (he : Effect a e a') : a'.live = a.nextLive e := by
  cases he with
  | dispatch hi hf => obtain ⟨_, _, _, _, _, _, rfl⟩ := hf.rest; rfl
  | nested hc hk hf => obtain ⟨_, _, _, _, _, _, rfl⟩ := hf.rest; rfl
  | suspend hc hk ha hp hs => cases ha <;> rfl
  | exit hc hk he hb hs => cases he <;> rfl
  | _ => rfl

theorem msgTop_effect (he : Effect a e a') : a'.msgTop = a.nextMsgTop e := by
  cases he with
  | dispatch hi hf => obtain ⟨_, _, _, _, _, _, rfl⟩ := hf.rest; rfl
  | nested hc hk hf => obtain ⟨_, _, _, _, _, _, rfl⟩ := hf.rest; rfl
  | suspend hc hk ha hp hs => cases ha <;> rfl
  | exit hc hk he hb hs => cases he <;> rfl
  | _ => rfl

/-! ## The transactions -/

/-- The number that a handler sends its next request with. -/
def reqRandomOf : Act → Option UInt32
  | .sendMsg _ _ _ _ r _ => some r
  | .callMsg _ _ _ _ r _ _ => some r
  | _ => none

theorem frame_of_reqRandomOf {p : Nat} {act : Act} {r : UInt32} (hr : reqRandomOf act = some r) :
    (Event.co p act).frame = none ∧ (Event.co p act).target = none := by
  cases act with
  | sendMsg => exact ⟨rfl, rfl⟩
  | callMsg => exact ⟨rfl, rfl⟩
  | _ => cases hr

/-- What an event makes of the transaction `p`. -/
inductive Changed (a : App) : Event → Nat → Transaction → Prop
  | same {e : Event} {p : Nat} (ht : e.target ≠ some p) (hr : ∀ act, e = .co p act → reqRandomOf act = none) :
      Changed a e p (a.trans p)
  | made {e : Event} {p : Nat} {t : Transaction} {fd : Int} {frame : AppHeadFrame} {coId : Nat}
      (he : e.frame = some frame)
      (ht : e.target = some p) (hd : frame.dstTransId = 0) (hp : ¬ a.Running p) (hcon : t.construct = t)
      (htype : t.type = frame.cmd) : Changed a e p { started a t fd frame a.msgTop with coId := coId }
  | answered {e : Event} {p : Nat} {fd : Int} {frame : AppHeadFrame} (he : e.frame = some frame)
      (ht : e.target = some p)
      (hd : 0 < frame.dstTransId) (hp : a.getTransaction frame.dstTransId = some p)
      (hr : rejects (a.trans p) frame = false) :
      Changed a e p (answered (a.trans p) fd a.msgTop)
  | timeout {p : Nat} {shown : TimerPool.Shown UInt32} :
      Changed a (.timer shown (some p)) p { a.trans p with state := .timeout, timerId := 0, reqRandom := 0 }
  | mysql {q p : Nat} {rsp : MysqlRsp} :
      Changed a (.mysqlRsp q rsp (some p)) p { a.trans p with mysqlRsp := some q, state := .active }
  | redis {q p : Nat} {rsp : RedisRsp} :
      Changed a (.redisRsp q rsp (some p)) p { a.trans p with redisRsp := some q, state := .active }
  | sent {p : Nat} {act : Act} {r : UInt32} (hr : reqRandomOf act = some r) (hrand : isRandom r = true) :
      Changed a (.co p act) p { a.trans p with reqRandom := r }
  | woke {p : Nat} {calls : List Call} {kind : WaitKind} {ret : WaitReturn} {seen : Seen} {t : Transaction} {pc : Pc}
      (hw : Woken a p calls kind ret seen t pc) : Changed a (.co p (.woke ret seen)) p t
  | row {p : Nat} {seen : Seen} : Changed a (.co p (.row seen)) p { a.trans p with mysqlRsp := none }

theorem Created.update {c : App} {cmd : UInt32} {p : Nat} (hn : Created a cmd p c) (t : Transaction) :
    Function.update c.trans p t = Function.update a.trans p t := by
  rw [hn.constructed.eq]
  simp

theorem framed_changed (h : Sound a) {b : App} (hab : SameButLoop a b) (hm : b.serverType = a.serverType ∧
    b.instanceId = a.instanceId ∧ b.serverZone = a.serverZone) {fd : Int} {frame : AppHeadFrame} {target : Option Nat}
    (hf : Framed b fd frame a.msgTop target a') (he : e.frame = some frame) (ht : e.target = target)
    (hr : ∀ p act, e = .co p act → reqRandomOf act = none) (q : Nat) : Changed a e q (a'.trans q) := by
  have hget : ∀ i, b.getTransaction i = a.getTransaction i := fun i => by simp [getTransaction, hab.active]
  have at_target : ∀ {p : Nat} {t : Transaction}, target = some p → a'.trans = Function.update a.trans p t →
      Changed a e p t → Changed a e q (a'.trans q) := by
    intro p t htp htr hch
    rw [htr]
    by_cases hq : q = p
    · subst hq; simpa using hch
    · rw [Function.update_of_ne hq]
      exact .same (by simp [ht, htp, Ne.symm hq]) (hr q)
  have hstart : ∀ t m, started b t fd frame m = started a t fd frame m := by
    intro t m
    simp [started, hm, hab.generator]
  cases hf with
  | none hf => rw [hab.trans]; exact .same (by simp [ht]) (hr q)
  | reject hd hp hr' => rw [hab.trans]; exact .same (by simp [ht]) (hr q)
  | @resume p id kind calls s hc hd hp hr hk hs =>
    rw [hab.trans] at hr
    exact at_target rfl (by rw [← hab.trans]; rfl) (.answered he ht hd (by rw [← hget]; exact hp) hr)
  | @store p hc hd hp hr =>
    rw [hab.trans] at hr
    exact at_target rfl (by rw [← hab.trans]; rfl) (.answered he ht hd (by rw [← hget]; exact hp) hr)
  | @start p id c s hc hd hn hid hs =>
    have hborn := hab.born (hn.born (hab.sound h))
    have hch : Changed a e p { started a (c.trans p) fd frame a.msgTop with coId := id } :=
      .made he ht hd hborn.unused hborn.construct hborn.type
    refine at_target rfl ?_ hch
    rw [insertActive_trans, ← hab.trans, ← hn.update, ← hstart]
    rfl
  | @lost p c hc hd hn =>
    have hborn := hab.born (hn.born (hab.sound h))
    have hch : Changed a e p { started a (c.trans p) fd frame a.msgTop with coId := (c.trans p).coId } :=
      .made he ht hd hborn.unused hborn.construct hborn.type
    refine at_target rfl ?_ hch
    rw [← hab.trans, ← hn.update, ← hstart]
    rfl

theorem trans_effect (h : Sound a) (he : Effect a e a') (q : Nat) : Changed a e q (a'.trans q) := by
  have unchanged : e.target = none → (∀ p act, e = .co p act → reqRandomOf act = none) → a'.trans = a.trans →
      Changed a e q (a'.trans q) := fun ht hr htr => by
    rw [htr]
    exact .same (by simp [ht]) (hr q)
  have at_one : ∀ {p : Nat} {t : Transaction}, (e.target = some p ∧ ∀ r act, e ≠ .co r act) ∨ (e.target = none ∧
      ∃ act, e = .co p act) → a'.trans = Function.update a.trans p t → Changed a e p t →
      Changed a e q (a'.trans q) := by
    intro p t hor htr hch
    rw [htr]
    by_cases hq : q = p
    · subst hq; simpa using hch
    · rw [Function.update_of_ne hq]
      rcases hor with ⟨ht, hno⟩ | ⟨ht, act, rfl⟩
      · exact .same (by simp [ht, Ne.symm hq]) fun act hact => absurd hact (hno _ _)
      · exact .same (by simp [ht]) fun act' hact => absurd (Event.co.inj hact).1.symm hq
  cases he with
  | @dispatch fd frame target _ hi hf =>
    exact framed_changed (b := (a.setLoop (.frame a.msgTop)).takeMsg frame) h ⟨rfl, rfl, rfl, rfl, rfl,
      rfl⟩ ⟨rfl, rfl, rfl⟩ hf
      rfl rfl (fun p act hact => by cases hact) q
  | @nested p id calls fd frame target _ hc hk hf =>
    refine framed_changed (b := a.takeMsg frame) h ⟨rfl, rfl, rfl, rfl, rfl, rfl⟩ ⟨rfl, rfl, rfl⟩ hf rfl rfl ?_ q
    rintro p' act ⟨⟩
    rfl
  | suspend hc hk ha hp hs =>
    cases ha with
    | callMsg hr => exact at_one (Or.inr ⟨rfl, _, rfl⟩) rfl (.sent rfl hr)
    | _ => exact unchanged rfl (by rintro p' act ⟨⟩; rfl) rfl
  | sendMsg hc hk hr => exact at_one (Or.inr ⟨rfl, _, rfl⟩) rfl (.sent rfl hr)
  | exit hc hk he hb hs => cases he <;> exact unchanged rfl (by rintro p' act ⟨⟩; rfl) rfl
  | woke hc hk hr hw hs => exact at_one (Or.inr ⟨rfl, _, rfl⟩) rfl (.woke hw)
  | fire hc hu hn hp hk hs => exact at_one (Or.inl ⟨rfl, fun r act hact => by cases hact⟩) rfl .timeout
  | mysqlRsp hi hq hp hk hs => exact at_one (Or.inl ⟨rfl, fun r act hact => by cases hact⟩) rfl .mysql
  | redisRsp hi hq hp hk hs => exact at_one (Or.inl ⟨rfl, fun r act hact => by cases hact⟩) rfl .redis
  | rowEnd hc hk hn hsh hs => exact at_one (Or.inr ⟨rfl, _, rfl⟩) rfl .row
  | parse hc hk hm hsh hs => exact unchanged rfl (by rintro p' act ⟨⟩; rfl) rfl
  | curFrame hc hk hm hsh => exact unchanged rfl (by rintro p' act ⟨⟩; rfl) rfl
  | rowNext hc hk hn hs => exact unchanged rfl (by rintro p' act ⟨⟩; rfl) rfl
  | _ => exact unchanged rfl (fun p act hact => by cases hact) rfl

theorem curFrame_effect (h : Sound a) (he : Effect a e a') (q : Nat) : (a'.trans q).curFrame =
    if e.frame.isSome ∧ e.target = some q then some a.msgTop else (a.trans q).curFrame := by
  have hch := trans_effect h he q
  generalize a'.trans q = t at hch ⊢
  cases hch with
  | same ht hr => simp [ht]
  | made he ht hd hp hcon htype => simp [he, ht, started]
  | answered he ht hd hp hr => simp [he, ht, answered]
  | sent hr hrand => simp [frame_of_reqRandomOf hr]
  | woke hw => cases hw <;> simp [Event.frame]
  | _ => simp [Event.frame]

/-! ## The handler that runs -/

theorem running_of_runs {s : Schedule Task} {id : Nat} {k : Task} (hr : Runs a.schedule s id k)
    (hs : a'.schedule = s) :
    a'.running = some k := by
  simp [running, hs, hr.curco, hr.task]

theorem running_of_stops {s : Schedule Task} {id : Nat} {k : Option Task} (hr : Stops a.schedule s id k)
    (hs : a'.schedule = s) : a'.running = none := by
  simp [running, hs, hr.curco]

theorem running_of_main (hc : a.schedule.curco = none) : a.running = none := by simp [running, hc]

theorem running_of_task {id : Nat} {k : Task} (hc : a.schedule.curco = some id) (hk : a.schedule.task id = some k) :
    a.running = some k := by
  simp [running, hc, hk]

theorem running_of_schedule (hs : a'.schedule = a.schedule) : a'.running = a.running := by simp [running, hs]

theorem running_Running {k : Task} (hk : a.running = some k) : a.Running k.trans := by
  obtain ⟨id, -, ht⟩ := Option.bind_eq_some_iff.mp hk
  exact ⟨id, k.pc, ht⟩

theorem schedule_of_nested {fd : Int} {frame : AppHeadFrame} {m : Nat} {target : Option Nat} {b : App}
    (hf : Framed b fd frame m target a') (hc : b.schedule.curco ≠ none) : a'.schedule = b.schedule := by
  cases hf with
  | resume hc' hd hp hr hk hs => exact absurd hc' hc
  | start hc' hd hn hid hs => exact absurd hc' hc
  | lost hc' hd hn => rw [hn.constructed.eq]; rfl
  | _ => rfl

theorem running_effect (he : Effect a e a') {k' : Task} (hk' : a'.running = some k') :
    (∃ k, a.running = some k ∧ k.trans = k'.trans ∧ a'.loop = a.loop ∧ (e.target = none ∨ e.frame.isSome)) ∨
      (a.running = none ∧ e.target = some k'.trans ∧ ∀ calls, k'.pc ≠ .code calls) := by
  cases he with
  | update hi => simp [running, (idle_spec.mp hi).1] at hk'
  | tick hc hu hn ht => simp [running, hc] at hk'
  | fire hc hu hn hp hk hs =>
    rw [running_of_runs hs rfl] at hk'
    cases hk'
    exact Or.inr ⟨running_of_main hc, rfl, nofun⟩
  | dispatch hi hf =>
    have hc : a.running = none := running_of_main (idle_spec.mp hi).1
    cases hf with
    | none hf => exact absurd (hc.symm.trans hk') (by simp)
    | reject hd hp hr => exact absurd (hc.symm.trans hk') (by simp)
    | resume hc' hd hp hr hk hs =>
      rw [running_of_runs hs rfl] at hk'
      cases hk'
      exact Or.inr ⟨hc, rfl, nofun⟩
    | store hc' hd hp hr => exact absurd (idle_spec.mp hi).1 hc'
    | start hc' hd hn hid hs =>
      rw [running_of_runs hs (by rw [insertActive_schedule]; rfl)] at hk'
      cases hk'
      exact Or.inr ⟨hc, rfl, nofun⟩
    | lost hc' hd hn => exact absurd (idle_spec.mp hi).1 hc'
  | mysqlNone hi hq hp => simp [running, (idle_spec.mp hi).1] at hk'
  | redisNone hi hq hp => simp [running, (idle_spec.mp hi).1] at hk'
  | mysqlRsp hi hq hp hk hs =>
    rw [running_of_runs hs rfl] at hk'
    cases hk'
    exact Or.inr ⟨running_of_main (idle_spec.mp hi).1, rfl, nofun⟩
  | redisRsp hi hq hp hk hs =>
    rw [running_of_runs hs rfl] at hk'
    cases hk'
    exact Or.inr ⟨running_of_main (idle_spec.mp hi).1, rfl, nofun⟩
  | dispatched hc hl => simp [running, hc] at hk'
  | recycle hl => exact Or.inl ⟨k', hk', rfl, rfl, Or.inl rfl⟩
  | routers => exact Or.inl ⟨k', hk', rfl, rfl, Or.inl rfl⟩
  | parse hc hk hm hsh hs =>
    rw [running_of_runs hs rfl] at hk'
    cases hk'
    exact Or.inl ⟨_, running_of_task hc hk, rfl, rfl, Or.inl rfl⟩
  | curFrame hc hk hm hsh => exact Or.inl ⟨k', hk', rfl, rfl, Or.inl rfl⟩
  | sendMsg hc hk hr => exact Or.inl ⟨k', hk', rfl, rfl, Or.inl rfl⟩
  | nested hc hk hf =>
    rw [running_of_schedule (schedule_of_nested hf (by simp [hc]))] at hk'
    obtain ⟨_, _, _, _, _, _, rfl⟩ := hf.rest
    exact Or.inl ⟨k', hk', rfl, rfl, Or.inr rfl⟩
  | suspend hc hk ha hp hs =>
    rw [running_of_stops hs rfl] at hk'
    cases hk'
  | woke hc hk hr hw hs =>
    rw [running_of_runs hs rfl] at hk'
    cases hk'
    exact Or.inl ⟨_, running_of_task hc hk, rfl, rfl, Or.inl rfl⟩
  | rowNext hc hk hn hs =>
    rw [running_of_runs hs rfl] at hk'
    cases hk'
    exact Or.inl ⟨_, running_of_task hc hk, rfl, rfl, Or.inl rfl⟩
  | rowEnd hc hk hn hsh hs =>
    rw [running_of_runs hs rfl] at hk'
    cases hk'
    exact Or.inl ⟨_, running_of_task hc hk, rfl, rfl, Or.inl rfl⟩
  | exit hc hk he hb hs =>
    rw [running_of_stops hs rfl] at hk'
    cases hk'

theorem waiting_effect (he : Effect a e a') {p : Nat} {kind : WaitKind} {calls : List Call}
    (hk : a.running = some ⟨p, .wait kind calls⟩) :
    (a'.running = a.running ∧ a'.trans = a.trans ∧ e.target = none ∧ ∀ q act, e ≠ .co q act) ∨
    ∃ ret seen pc, e = .co p (.woke ret seen) ∧
      waitReturn (a.trans p) = ret ∧ Woken a p calls kind ret seen (a'.trans p) pc ∧ a'.running = some ⟨p, pc⟩ := by
  have idle : ∀ {P : Prop}, a.running = none → P := fun hn => by simp [hn] at hk
  have same : ∀ {id : Nat} {k : Task}, a.schedule.curco = some id → a.schedule.task id = some k →
    k = ⟨p, .wait kind calls⟩ :=
    fun h1 h2 => Option.some.inj ((running_of_task h1 h2).symm.trans hk)
  cases he with
  | update hi => exact idle (running_of_main (idle_spec.mp hi).1)
  | tick h1 hu hn ht => exact idle (running_of_main h1)
  | fire h1 hu hn hp hw hs => exact idle (running_of_main h1)
  | dispatch hi hf => exact idle (running_of_main (idle_spec.mp hi).1)
  | mysqlNone hi hreq hp => exact idle (running_of_main (idle_spec.mp hi).1)
  | mysqlRsp hi hreq hp hw hs => exact idle (running_of_main (idle_spec.mp hi).1)
  | redisNone hi hreq hp => exact idle (running_of_main (idle_spec.mp hi).1)
  | redisRsp hi hreq hp hw hs => exact idle (running_of_main (idle_spec.mp hi).1)
  | dispatched h1 hl => exact idle (running_of_main h1)
  | recycle hl => exact Or.inl ⟨running_of_schedule rfl, rfl, rfl, fun q act h => by cases h⟩
  | routers => exact Or.inl ⟨running_of_schedule rfl, rfl, rfl, fun q act h => by cases h⟩
  | parse h1 hw hm hsh hs => cases same h1 hw
  | curFrame h1 hw hm hsh => cases same h1 hw
  | sendMsg h1 hw hrand => cases same h1 hw
  | nested h1 hw hf => cases same h1 hw
  | suspend h1 hw ha hp hs => cases same h1 hw
  | rowNext h1 hw hn hs => cases same h1 hw
  | rowEnd h1 hw hn hsh hs => cases same h1 hw
  | exit h1 hw hend hb hs =>
    cases same h1 hw
    cases hend
  | woke h1 hw hret hwk hs =>
    cases same h1 hw
    exact Or.inr ⟨_, _, _, rfl, hret, by simpa using hwk, running_of_runs hs rfl⟩

theorem loop_of_running (he : Effect a e a') {k : Task} (hk : a.running = some k) : a'.loop = a.loop := by
  have busy : a.idle = true → a'.loop = a.loop := fun hi => by simp [running_of_main (idle_spec.mp hi).1] at hk
  cases he with
  | dispatch hi hf => exact busy hi
  | mysqlNone hi hq hp => exact busy hi
  | mysqlRsp hi hq hp hw hs => exact busy hi
  | redisNone hi hq hp => exact busy hi
  | redisRsp hi hq hp hw hs => exact busy hi
  | dispatched hc hl => simp [running_of_main hc] at hk
  | nested hc hw hf => obtain ⟨_, _, _, _, _, _, rfl⟩ := hf.rest; rfl
  | suspend hc hw ha hp hs => cases ha <;> rfl
  | _ => rfl

theorem running_back (h : Sound a) (he : Effect a e a') {q : Nat} (hq : a'.Running q) : a.Running q ∨
    ¬ a.Running q ∧ ∃ fd frame, e = .dispatch fd frame (some q) ∧ frame.dstTransId = 0 := by
  cases effect_life h he with
  | keep ok waits trans handler active buckets top generator => exact Or.inl ((running_keep handler).mp hq)
  | start he hd hc born ok cur new task others trans active buckets top generator =>
    rcases (running_start new task).mp hq with hq | rfl
    · exact Or.inl hq
    · exact Or.inr ⟨born.unused, _, _, he, hd⟩
  | lost he hd hc born schedule others type timer active buckets top generator =>
    exact Or.inl ((running_same schedule).mp hq)
  | exit he cur run hs trans active free nodup buckets top generator => exact Or.inl ((running_exit h run hs).mp hq).1

end App

end GlobalServer
