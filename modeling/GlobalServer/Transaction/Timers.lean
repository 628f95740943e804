import GlobalServer.Base.TimePoolFires
import GlobalServer.Transaction.Reply
import GlobalServer.Transaction.Responses

/-!
# The timers of waits

`SetTimer` adds a timer and does not store its id, so that `CancelTimer` has
nothing to cancel: the timer of a wait that was answered stays in the pool
and ends a later wait of the same transaction. As long as no wait is answered
while its timer is there, each timer is that of the wait its transaction is
in.
-/

namespace GlobalServer

open Schedule (Runs Stops)

/-- The reading of the clock and the interval that an act waits with. -/
def Act.waits : Act → Option (Int × Int)
  | .callMsg _ _ _ _ _ _ now => some (now, 5000)
  | .wait now interval => some (now, interval)
  | .mysqlQuery _ now => some (now, 120000)
  | .redisExecute now => some (now, 120000)
  | _ => none

namespace App

def waitBeganStep (p : Nat) (r : Option (Int × Int)) : Event → Option (Int × Int)
  | .co q act => if q = p ∧ act.waits.isSome then act.waits else r
  | _ => r

/-- When the transaction's last wait began, and for how long. -/
def waitBegan (t : List Event) (p : Nat) : Option (Int × Int) := t.foldl (waitBeganStep p) none

/-- The clock reading of the last `Update`. -/
def lastUpdate (beg : Int) (t : List Event) : Int :=
  t.foldl (fun r e => match e with
    | .update now => now
    | _ => r) beg

theorem waitBegan_concat (t : List Event) (e : Event) (p : Nat) :
    waitBegan (t ++ [e]) p = waitBeganStep p (waitBegan t p) e := by
  simp [waitBegan]

theorem lastUpdate_concat (beg : Int) (t : List Event) (e : Event) : lastUpdate beg (t ++ [e]) = match e with
    | .update now => now
    | _ => lastUpdate beg t := by
  simp [lastUpdate]

/-- A live timer for the id `i`: its callback is still to come. -/
def LiveTimer (a : App) (n : Nat) (i : UInt32) : Prop :=
  a.timerPool.Pending n ∧ ∃ nd, a.timerPool.nodes n = some nd ∧ nd.cb = i

/-- The handler of `p` stands in `Wait` on a coroutine that does not run. -/
def Suspended (a : App) (p : Nat) : Prop :=
  ∃ id kind calls, a.schedule.task id = some ⟨p, .wait kind calls⟩ ∧ a.schedule.curco ≠ some id

/-- No id is given that is in use, and what sets a handler going but its timer does so when it has no timer. -/
structure TimersOk (a : App) (e : Event) : Prop where
  id : ∀ fd frame p, e = .dispatch fd frame (some p) → frame.dstTransId = 0 →
    a.getTransaction a.transIdGenerator = none
  frame : ∀ fd frame p, e = .dispatch fd frame (some p) → frame.dstTransId ≠ 0 →
    ∀ n, ¬ a.LiveTimer n (a.trans p).transId
  mysql : ∀ q rsp p, e = .mysqlRsp q rsp (some p) → ∀ n, ¬ a.LiveTimer n (a.trans p).transId
  redis : ∀ q rsp p, e = .redisRsp q rsp (some p) → ∀ n, ¬ a.LiveTimer n (a.trans p).transId

/-- What an event does to the pool. -/
inductive PoolStep (a : App) (e : Event) (a' : App) : Prop
  | same (hp : a'.timerPool = a.timerPool) (he : ∀ now, e ≠ .update now)
      (ht : ∀ shown target, e ≠ .timer shown target)
  | update {now : Int} (he : e = .update now) (hu : a.timerPool.updating = none)
      (hp : a'.timerPool = a.timerPool.beginUpdate now)
  | tick {u : Updating} {shown : TimerPool.Shown UInt32} {target : Option Nat} (he : e = .timer shown target)
      (hu : a.timerPool.updating = some u) (hn : a.timerPool.updateNext u = .ok (a'.timerPool, shown))
  | add {id p : Nat} {kind : WaitKind} {calls : List Call} {act : Act} {now interval : Int} (he : e = .co p act)
      (hs : Suspends a a' id p kind calls act now interval)

section
variable {t : List Event} {a a' : App} {e : Event}

theorem poolStep_effect (he : Effect a e a') : PoolStep a e a' := by
  cases he with
  | update hi => exact .update rfl (idle_spec.mp hi).2.2 rfl
  | tick hc hu hn ht => exact .tick rfl hu hn
  | fire hc hu hn hp hk hs => exact .tick rfl hu hn
  | dispatch hi hf => obtain ⟨_, _, _, _, _, _, rfl⟩ := hf.rest; exact .same rfl nofun nofun
  | nested hc hk hf => obtain ⟨_, _, _, _, _, _, rfl⟩ := hf.rest; exact .same rfl nofun nofun
  | @suspend p id tid calls act b now interval kind pool s hc hk ha hp hs =>
    exact .add rfl ⟨hc, hk, hs, ⟨b, ha, rfl⟩, tid, hp⟩
  | _ => exact .same rfl nofun nofun

/-! ## The pool -/

/-- The pool is in order, and the `Update` under way is the last one. -/
structure PoolOk (beg : Int) (t : List Event) (a : App) : Prop where
  wheel : a.timerPool.Wheel
  due : a.timerPool.Due
  clock : ∀ u, a.timerPool.updating = some u → u.now = lastUpdate beg t

theorem lastUpdate_of_ne {beg : Int} (he : ∀ now, e ≠ .update now) :
    lastUpdate beg (t ++ [e]) = lastUpdate beg t := by
  rw [lastUpdate_concat]
  split
  · rename_i now
    exact absurd rfl (he now)
  · rfl

theorem Suspends.pool {id p : Nat} {kind : WaitKind} {calls : List Call} {act : Act} {now interval : Int}
    (hs : Suspends a a' id p kind calls act now interval) (hw : a.timerPool.Wheel) : a'.timerPool = a.timerPool ∨
      ∃ idx, 0 ≤ idx ∧ idx < bigBucketCnt * 10 ∧
        TimerPool.Added a.timerPool a'.timerPool idx (now + interval) (a.trans p).transId := by
  obtain ⟨tid, ht⟩ := hs.timer
  rcases TimerPool.addTimer_spec hw.toHeap ht with ⟨-, hp⟩ | ⟨idx, -, h0, h1, -, -, -, hadd⟩
  · exact Or.inl hp
  · exact Or.inr ⟨idx, h0, h1, hadd⟩

theorem poolOk_effect {beg : Int} (hp : PoolOk beg t a) (he : Effect a e a') : PoolOk beg (t ++ [e]) a' := by
  cases poolStep_effect he with
  | same hpool hne _ =>
    refine ⟨by rw [hpool]; exact hp.wheel, by rw [hpool]; exact hp.due, ?_⟩
    rw [hpool, lastUpdate_of_ne hne]
    exact hp.clock
  | @update now hev hu hpool =>
    subst hev
    refine ⟨by rw [hpool]; exact TimerPool.wheel_begin hp.wheel hu now, ?_, ?_⟩
    · rw [hpool]
      intro u hu' n hn
      cases hu'
      cases hn
    · rw [hpool, lastUpdate_concat]
      intro u hu'
      cases hu'
      rfl
  | @tick u shown target hev hu hn =>
    subst hev
    have ht := TimerPool.updateNext_tick hp.wheel.toHeap hu hn
    refine ⟨TimerPool.wheel_tick hp.wheel hu ht, TimerPool.due_tick hp.wheel hp.due hu ht, ?_⟩
    rw [lastUpdate_of_ne (by rintro now ⟨⟩)]
    intro u' hu'
    rcases TimerPool.updating_tick ht with ⟨-, hend⟩ | ⟨-, u'', hu'', hnow, -⟩
    · rw [hend] at hu'
      cases hu'
    · obtain rfl := Option.some.inj (hu'.symm.trans hu'')
      rw [hnow]
      exact hp.clock u hu
  | @add id p kind calls act now interval hev hs =>
    subst hev
    have hlast : lastUpdate beg (t ++ [.co p act]) = lastUpdate beg t := lastUpdate_of_ne (by rintro now ⟨⟩)
    rcases hs.pool hp.wheel with hpool | ⟨idx, h0, h1, hadd⟩
    · refine ⟨by rw [hpool]; exact hp.wheel, by rw [hpool]; exact hp.due, ?_⟩
      rw [hpool, hlast]
      exact hp.clock
    · refine ⟨hadd.wheel hp.wheel ⟨h0, h1⟩, ?_, by rw [hadd.updating, hlast]; exact hp.clock⟩
      intro u hu n hn nd hnd
      rw [hadd.updating] at hu
      rw [TimerPool.detached_congr hadd.updating] at hn
      have hne : n ≠ a.timerPool.nodeTop := fun e => hp.wheel.fresh.2 (e ▸ hn)
      rw [hadd.nodes, Function.update_of_ne hne] at hnd
      exact hp.due u hu n hn nd hnd

/-! ## Suspended handlers -/

theorem Suspended.running {p : Nat} (h : Suspended a p) : a.Running p := by
  obtain ⟨id, kind, calls, hk, -⟩ := h
  exact ⟨id, _, hk⟩

theorem Suspended.ne_current (h : Sound a) {p q : Nat} (hs : Suspended a p) {id : Nat} {pc : Pc}
    (hc : a.schedule.curco = some id)
    (hk : a.schedule.task id = some ⟨q, pc⟩) : p ≠ q := by
  rintro rfl
  obtain ⟨id', kind, calls, hk', hn⟩ := hs
  obtain rfl : id' = id := (h.owner id' _ hk').2.1.symm.trans (h.owner id _ hk).2.1
  exact hn hc

theorem current_of_co {q : Nat} {ac : Act} (he : Effect a (.co q ac) a') :
    ∃ id pc, a.schedule.curco = some id ∧ a.schedule.task id = some ⟨q, pc⟩ := by
  cases he with
  | parse hc hk hm hsh hs => exact ⟨_, _, hc, hk⟩
  | curFrame hc hk hm hsh => exact ⟨_, _, hc, hk⟩
  | sendMsg hc hk hr => exact ⟨_, _, hc, hk⟩
  | nested hc hk hf => exact ⟨_, _, hc, hk⟩
  | suspend hc hk ha hp hs => exact ⟨_, _, hc, hk⟩
  | woke hc hk hr hw hs => exact ⟨_, _, hc, hk⟩
  | rowNext hc hk hn hs => exact ⟨_, _, hc, hk⟩
  | rowEnd hc hk hn hsh hs => exact ⟨_, _, hc, hk⟩
  | exit hc hk hend hb hs => exact ⟨_, _, hc, hk⟩

/-- A suspended handler stays so until an event of the loop is handed to its transaction. -/
theorem suspended_effect (he : Effect a e a') {p : Nat} (hs : Suspended a p) :
    Suspended a' p ∨ (a.schedule.curco = none ∧ e.target = some p) := by
  obtain ⟨id, kind, calls, hk, hn⟩ := hs
  have stays : a'.schedule = a.schedule → Suspended a' p := fun hsch => ⟨id, kind, calls,
    by rw [hsch]; exact hk, by rw [hsch]; exact hn⟩
  have others : ∀ {s : Schedule Task} {i : Nat} {k : Task}, Runs a.schedule s i k → a'.schedule = s → id ≠ i →
    Suspended a' p := by
    intro s i k hr hsch hi
    refine ⟨id, kind, calls, ?_, ?_⟩
    · rw [hsch, hr.task, Function.update_of_ne hi]; exact hk
    · rw [hsch, hr.curco]; simpa using Ne.symm hi
  have stops : ∀ {s : Schedule Task} {i : Nat} {k : Option Task}, a.schedule.curco = some i → Stops a.schedule s i k →
      a'.schedule = s → Suspended a' p := by
    intro s i k hc hr hsch
    have hi : id ≠ i := fun e => hn (e ▸ hc)
    refine ⟨id, kind, calls, ?_, ?_⟩
    · rw [hsch, hr.task, Function.update_of_ne hi]; exact hk
    · rw [hsch, hr.curco]; exact nofun
  have resumed : ∀ {s : Schedule Task} {i q : Nat} {pc pc' : Pc}, a.schedule.curco = none → e.target = some q →
      a.schedule.task i = some ⟨q, pc⟩ → Runs a.schedule s i ⟨q, pc'⟩ → a'.schedule = s →
      Suspended a' p ∨ (a.schedule.curco = none ∧ e.target = some p) := by
    intro s i q pc pc' hc ht hq hr hsch
    by_cases hi : id = i
    · subst hi
      cases hk.symm.trans hq
      exact Or.inr ⟨hc, ht⟩
    · exact Or.inl (others hr hsch hi)
  have goes_on : ∀ {s : Schedule Task} {i : Nat} {k : Task}, a.schedule.curco = some i → Runs a.schedule s i k →
      a'.schedule = s → Suspended a' p := fun hc hr hsch => others hr hsch fun e => hn (e ▸ hc)
  cases he with
  | fire hc hu hnx hp hw hs => exact resumed hc rfl hw hs rfl
  | dispatch hi hf =>
    have hc := (idle_spec.mp hi).1
    cases hf with
    | none hf => exact Or.inl (stays rfl)
    | reject hd hp hr => exact Or.inl (stays rfl)
    | resume h1 hd hp hr hw hs => exact resumed hc rfl hw hs rfl
    | store h1 hd hp hr => exact absurd hc h1
    | start h1 hd hnew hid hs =>
      refine Or.inl (others hs (by rw [insertActive_schedule]; rfl) ?_)
      rintro rfl
      exact absurd (hk.symm.trans hid) (by simp)
    | lost h1 hd hnew => exact absurd hc h1
  | mysqlRsp hi hq hp hw hs => exact resumed (idle_spec.mp hi).1 rfl hw hs rfl
  | redisRsp hi hq hp hw hs => exact resumed (idle_spec.mp hi).1 rfl hw hs rfl
  | parse hc hw hm hsh hs => exact Or.inl (goes_on hc hs rfl)
  | nested hc hw hf => exact Or.inl (stays (schedule_of_nested (b := a.takeMsg _) hf (by simp [hc])))
  | suspend hc hw ha hp hs => exact Or.inl (stops hc hs rfl)
  | woke hc hw hr hwk hs => exact Or.inl (goes_on hc hs rfl)
  | rowNext hc hw hnx hs => exact Or.inl (goes_on hc hs rfl)
  | rowEnd hc hw hnx hsh hs => exact Or.inl (goes_on hc hs rfl)
  | exit hc hw hend hb hs => exact Or.inl (stops hc hs rfl)
  | _ => exact Or.inl (stays rfl)

theorem waitBegan_effect (h : Sound a) (he : Effect a e a') {p : Nat} (hs : Suspended a p) :
    waitBegan (t ++ [e]) p = waitBegan t p := by
  rw [waitBegan_concat]
  cases e with
  | co q ac =>
    obtain ⟨id, pc, hc, hk⟩ := current_of_co he
    have hne : q ≠ p := Ne.symm (hs.ne_current h hc hk)
    simp [waitBeganStep, hne]
  | _ => rfl

/-! ## Each timer is that of a wait -/

/-- The timer is that of the wait its transaction is in. -/
def OwnTimer (t : List Event) (a : App) (nd : TimeNode UInt32) : Prop :=
  ∃ p now interval, Suspended a p ∧ (a.trans p).transId = nd.cb ∧ waitBegan t p = some (now, interval) ∧
    nd.expire = now + interval

structure OwnTimers (t : List Event) (a : App) : Prop where
  own : ∀ n nd, a.timerPool.Pending n → a.timerPool.nodes n = some nd → OwnTimer t a nd
  one : ∀ n n' i, a.LiveTimer n i → a.LiveTimer n' i → n = n'

theorem ownTimer_kept (h : Sound a) (he : Effect a e a') {nd : TimeNode UInt32} (ho : OwnTimer t a nd)
    (hn : ∀ p, e.target = some p → a.schedule.curco = none → a.Running p → (a.trans p).transId ≠ nd.cb) :
    OwnTimer (t ++ [e]) a' nd := by
  obtain ⟨p, now, interval, hs, hid, hb, hx⟩ := ho
  refine ⟨p, now, interval, ?_, ?_, ?_, hx⟩
  · rcases suspended_effect he hs with hs' | ⟨hc, ht⟩
    · exact hs'
    · exact absurd hid (hn p ht hc hs.running)
  · rw [transId_effect h he hs.running]
    exact hid
  · rw [waitBegan_effect h he hs]
    exact hb

/-- What the loop hands to a running transaction, other than a timer, finds it without one. -/
theorem handed_no_timer (h : Sound a) (hc : TimersOk a e) (he : Effect a e a') (hmain : a.schedule.curco = none)
    (htimer : ∀ shown target, e ≠ .timer shown target) {p : Nat} (ht : e.target = some p)
    (hp : a.Running p) (n : Nat) :
    ¬ a.LiveTimer n (a.trans p).transId := by
  cases e with
  | timer shown target => exact absurd rfl (htimer shown target)
  | dispatch fd frame target =>
    obtain rfl : target = some p := ht
    by_cases hd : frame.dstTransId = 0
    · exact absurd hp (made_effect h he rfl rfl hd).1
    · exact hc.frame _ _ _ rfl hd n
  | mysqlRsp q rsp target =>
    obtain rfl : target = some p := ht
    exact hc.mysql _ _ _ rfl n
  | redisRsp q rsp target =>
    obtain rfl : target = some p := ht
    exact hc.redis _ _ _ rfl n
  | co q act =>
    obtain ⟨id, pc, hcur, -⟩ := current_of_co he
    simp [hmain] at hcur
  | _ => cases ht

theorem Suspends.began {id p : Nat} {kind : WaitKind} {calls : List Call} {act : Act} {now interval : Int}
    (hs : Suspends a a' id p kind calls act now interval) :
    waitBegan (t ++ [.co p act]) p = some (now, interval) ∧ Suspended a' p ∧
    (a'.trans p).transId = (a.trans p).transId := by
  obtain ⟨b, ha, he⟩ := hs.asks
  refine ⟨?_, ⟨id, kind, calls, by simp [hs.stops.task], by simp [hs.stops.curco]⟩, ?_⟩
  · rw [waitBegan_concat]
    cases ha <;> simp [waitBeganStep, Act.waits]
  · rw [he]
    cases ha <;> simp [setReqRandom]

theorem ownTimers_same (h : Sound a) (hi : OwnTimers t a) (hc : TimersOk a e) (he : Effect a e a')
    (hp : a'.timerPool.nodes = a.timerPool.nodes) (hpend : ∀ n, a'.timerPool.Pending n → a.timerPool.Pending n)
    (htimer : ∀ shown target, e ≠ .timer shown target) : OwnTimers (t ++ [e]) a' := by
  refine ⟨fun n nd hn hnd => ?_, fun n n' i hn hn' => ?_⟩
  · rw [hp] at hnd
    refine ownTimer_kept h he (hi.own n nd (hpend n hn) hnd) fun p ht hcur hrun hid => ?_
    exact handed_no_timer h hc he hcur htimer ht hrun n ⟨hpend n hn, nd, hnd, hid.symm⟩
  · obtain ⟨hn, nd, hnd, hcb⟩ := hn
    obtain ⟨hn', nd', hnd', hcb'⟩ := hn'
    rw [hp] at hnd hnd'
    exact hi.one n n' i ⟨hpend n hn, nd, hnd, hcb⟩ ⟨hpend n' hn', nd', hnd', hcb'⟩

theorem ownTimers_tick (h : Sound a) (hi : OwnTimers t a) {shown : TimerPool.Shown UInt32} {target : Option Nat}
    (he : Effect a (.timer shown target) a') {u : Updating} (hw : a.timerPool.Wheel)
    (hu : a.timerPool.updating = some u)
    (hn : a.timerPool.updateNext u = .ok (a'.timerPool, shown)) : OwnTimers (t ++ [.timer shown target]) a' := by
  have ht := TimerPool.updateNext_tick hw.toHeap hu hn
  have back : ∀ n nd, a'.timerPool.Pending n → a'.timerPool.nodes n = some nd →
      a.timerPool.Pending n ∧ a.timerPool.nodes n = some nd ∧ ∀ cb, shown ≠ .callback n cb := by
    intro n nd hp hnd
    obtain ⟨hp, hne⟩ := (TimerPool.pending_tick hw hu ht).mp hp
    exact ⟨hp, TimerPool.nodes_tick ht hnd, hne⟩
  refine ⟨fun n nd hp hnd => ?_, fun n n' i hl hl' => ?_⟩
  · obtain ⟨hold, hold', hne⟩ := back n nd hp hnd
    refine ownTimer_kept h he (hi.own n nd hold hold') fun p htp hcur hrun hid => ?_
    obtain rfl : target = some p := htp
    cases he with
    | @fire node _ _ cb _ _ _ _ _ hc hu' hn' hpt hk hs =>
      -- the timer that is called is the only one of its id
      have hfired := TimerPool.pending_of_callback hu ht
      obtain ⟨nd', hnd', hcb⟩ := TimerPool.node_of_callback ht
      have hone : node = n :=
        hi.one node n cb ⟨hfired, nd', hnd', hcb⟩ ⟨hold, nd, hold', hid.symm.trans (h.active cb p hpt).1⟩
      exact hne cb (by rw [hone])
  · obtain ⟨hp, nd, hnd, hcb⟩ := hl
    obtain ⟨hp', nd', hnd', hcb'⟩ := hl'
    obtain ⟨hp, hnd, -⟩ := back n nd hp hnd
    obtain ⟨hp', hnd', -⟩ := back n' nd' hp' hnd'
    exact hi.one n n' i ⟨hp, nd, hnd, hcb⟩ ⟨hp', nd', hnd', hcb'⟩

theorem ownTimers_add (h : Sound a) (hm : a.Mapped) (hi : OwnTimers t a) (hw : a.timerPool.Wheel) {id p : Nat}
    {kind : WaitKind} {calls : List Call} {act : Act} {now interval : Int} (he : Effect a (.co p act) a')
    (hs : Suspends a a' id p kind calls act now interval) {idx : Int}
    (hadd : TimerPool.Added a.timerPool a'.timerPool idx (now + interval) (a.trans p).transId) :
    OwnTimers (t ++ [.co p act]) a' := by
  obtain ⟨hbegan, hsusp, hid⟩ := hs.began (t := t)
  have hrun : a.Running p := ⟨id, _, hs.code⟩
  have back : ∀ n nd, a'.timerPool.Pending n → a'.timerPool.nodes n = some nd →
      (n ≠ a.timerPool.nodeTop ∧ a.timerPool.Pending n ∧ a.timerPool.nodes n = some nd) ∨
        (n = a.timerPool.nodeTop ∧ nd.cb = (a.trans p).transId ∧ nd.expire = now + interval) := by
    intro n nd hp hnd
    rw [hadd.nodes] at hnd
    by_cases hn : n = a.timerPool.nodeTop
    · subst hn
      rw [Function.update_self] at hnd
      cases hnd
      exact Or.inr ⟨rfl, rfl, rfl⟩
    · rw [Function.update_of_ne hn] at hnd
      rcases hadd.pending_back hw hp with hp | hp
      · exact Or.inl ⟨hn, hp, hnd⟩
      · exact absurd hp hn
  -- the timers that were there are not the running handler's
  have older : ∀ n nd, a.timerPool.Pending n → a.timerPool.nodes n = some nd → nd.cb ≠ (a.trans p).transId := by
    intro n nd hp hnd hcb
    obtain ⟨q, now', interval', hq, hqid, -⟩ := hi.own n nd hp hnd
    exact hq.ne_current h hs.current hs.code (hm.inj hq.running hrun (hqid.trans hcb))
  refine ⟨fun n nd hp hnd => ?_, fun n n' i hl hl' => ?_⟩
  · rcases back n nd hp hnd with ⟨-, hp, hnd⟩ | ⟨rfl, hcb, hx⟩
    · refine ownTimer_kept h he (hi.own n nd hp hnd) fun q ht hcur => ?_
      simp [hs.current] at hcur
    · exact ⟨p, now, interval, hsusp, hid.trans hcb.symm, hbegan, hx⟩
  · obtain ⟨hp, nd, hnd, hcb⟩ := hl
    obtain ⟨hp', nd', hnd', hcb'⟩ := hl'
    rcases back n nd hp hnd with ⟨-, hp, hnd⟩ | ⟨hn, hcb₁, -⟩
    · rcases back n' nd' hp' hnd' with ⟨-, hp', hnd'⟩ | ⟨-, hcb₂, -⟩
      · exact hi.one n n' i ⟨hp, nd, hnd, hcb⟩ ⟨hp', nd', hnd', hcb'⟩
      · exact absurd (hcb.trans (hcb'.symm.trans hcb₂)) (older n nd hp hnd)
    · rcases back n' nd' hp' hnd' with ⟨-, hp', hnd'⟩ | ⟨hn', -, -⟩
      · exact absurd (hcb'.trans (hcb.symm.trans hcb₁)) (older n' nd' hp' hnd')
      · rw [hn, hn']

theorem ownTimers_effect (h : Sound a) (hm : a.Mapped) {beg : Int} (hp : PoolOk beg t a) (hi : OwnTimers t a)
    (hc : TimersOk a e) (he : Effect a e a') : OwnTimers (t ++ [e]) a' := by
  cases poolStep_effect he with
  | same hpool hne hne' =>
    exact ownTimers_same h hi hc he (by rw [hpool]) (fun n hn => by rwa [hpool] at hn) hne'
  | update hev hu hpool =>
    subst hev
    refine ownTimers_same h hi hc he (by rw [hpool]; rfl) (fun n hn => ?_) nofun
    rw [hpool] at hn
    exact (TimerPool.pending_begin hu).mp hn
  | tick hev hu hn =>
    subst hev
    exact ownTimers_tick h hi he hp.wheel hu hn
  | add hev hs =>
    subst hev
    rcases hs.pool hp.wheel with hpool | ⟨idx, -, -, hadd⟩
    · exact ownTimers_same h hi hc he (by rw [hpool]) (fun n hn => by rwa [hpool] at hn) nofun
    · exact ownTimers_add h hm hi hp.wheel he hs hadd

theorem OwnTimers.running_none (hi : OwnTimers t a) (h : Sound a) (hm : a.Mapped) {k : Task}
    (hk : a.running = some k) (n : Nat) :
    ¬ a.LiveTimer n (a.trans k.trans).transId := by
  rintro ⟨hp, nd, hnd, hcb⟩
  obtain ⟨q, now, interval, hq, hid, -⟩ := hi.own n nd hp hnd
  obtain ⟨id, hc, hk'⟩ := Option.bind_eq_some_iff.mp hk
  exact hq.ne_current h hc hk' (hm.inj hq.running (running_Running hk) (hid.trans hcb))

/-! ## What ends a wait as `TIMEOUT` -/

/-- The transaction's last wait has lasted as long as it was to. -/
def TimedOut (beg : Int) (t : List Event) (p : Nat) : Prop :=
  ∃ now interval, waitBegan t p = some (now, interval) ∧ now + interval ≤ lastUpdate beg t

def TimeoutOk (beg : Int) (t : List Event) (a : App) : Prop :=
  ∀ p kind calls, a.running = some ⟨p, .wait kind calls⟩ → (a.trans p).state ≠ .active → TimedOut beg t p

theorem timedOut_fire (h : Sound a) (hm : a.Mapped) {beg : Int} (hp : PoolOk beg t a) (hi : OwnTimers t a)
    {u : Updating}
    {node p : Nat} {cb : UInt32} {pool : TimerPool UInt32} (hu : a.timerPool.updating = some u)
    (hn : a.timerPool.updateNext u = .ok (pool, .callback node cb)) (hcb : a.getTransaction cb = some p) :
    Suspended a p ∧ TimedOut beg t p := by
  have ht := TimerPool.updateNext_tick hp.wheel.toHeap hu hn
  obtain ⟨nd, hnd, rfl⟩ := TimerPool.node_of_callback ht
  obtain ⟨q, now, interval, hq, hid, hb, hx⟩ := hi.own node nd (TimerPool.pending_of_callback hu ht) hnd
  obtain ⟨hpid, hrun⟩ := h.active _ p hcb
  obtain rfl : q = p := hm.inj hq.running hrun (hid.trans hpid.symm)
  refine ⟨hq, now, interval, hb, ?_⟩
  have hdue := hp.due u hu node (TimerPool.detached_of_callback hu ht) nd hnd
  rwa [hp.clock u hu, hx] at hdue

theorem timeoutOk_effect (h : Sound a) (hm : a.Mapped) {beg : Int} (hp : PoolOk beg t a) (hi : OwnTimers t a)
    (hto : TimeoutOk beg t a) (he : Effect a e a') : TimeoutOk beg (t ++ [e]) a' := by
  intro p kind calls hk' hst
  rcases standing_effect h he hk' with ⟨hk, htrans, -, hno⟩ | ⟨hnone, ht⟩
  · rw [htrans] at hst
    obtain ⟨now, interval, hb, hle⟩ := hto p kind calls hk hst
    refine ⟨now, interval, ?_, ?_⟩
    · rw [waitBegan_concat]
      cases e with
      | co q act => exact absurd rfl (hno q act)
      | _ => exact hb
    · rw [lastUpdate_of_ne]
      · exact hle
      · rintro now rfl
        cases he with
        | update hidle => simp [running_of_main (idle_spec.mp hidle).1] at hk
  · have answered : (a'.trans p).state = .active → TimedOut beg (t ++ [e]) p := fun hact => absurd hact hst
    cases he with
    | fire hc hu hn hp' hw hs =>
      cases ht
      obtain ⟨-, now, interval, hb, hle⟩ := timedOut_fire h hm hp hi hu hn hp'
      exact ⟨now, interval, by rw [waitBegan_concat]; exact hb, by rw [lastUpdate_of_ne fun _ h => by cases h]; exact hle⟩
    | dispatch hidle hf =>
      cases hf with
      | none hf => cases ht
      | reject hd hp' hr => cases ht
      | resume h1 hd hp' hr hw hs =>
        cases ht
        exact answered (by simp [App.answered])
      | store h1 hd hp' hr => exact absurd (idle_spec.mp hidle).1 h1
      | start h1 hd hn hid hs =>
        rw [running_of_runs hs (by rw [insertActive_schedule]; rfl)] at hk'
        cases hk'
      | lost h1 hd hn => exact absurd (idle_spec.mp hidle).1 h1
    | mysqlRsp hidle hq hp' hw hs =>
      cases ht
      exact answered (by simp)
    | redisRsp hidle hq hp' hw hs =>
      cases ht
      exact answered (by simp)
    | nested h1 hw hf => simp [running_of_task h1 hw] at hnone
    | suspend h1 hw ha hp' hs => cases ha <;> cases ht
    | exit h1 hw hend hb hs => cases hend <;> cases ht
    | _ => cases ht

end

/-- Each running transaction has at most one live timer, and the running handler's has none. -/
structure TimersKept (a : App) : Prop where
  one : ∀ p, a.Running p → ∀ n n', a.LiveTimer n (a.trans p).transId → a.LiveTimer n' (a.trans p).transId → n = n'
  none : ∀ k, a.running = some k → ∀ n, ¬ a.LiveTimer n (a.trans k.trans).transId

/-- What the runs of this file keep. -/
structure TimersInv (beg : Int) (t : List Event) (a : App) : Prop where
  pool : PoolOk beg t a
  own : OwnTimers t a
  timeout : TimeoutOk beg t a

section
variable {c : Config} {t : List Event} {a : App}

theorem timersInv_init (c : Config) : TimersInv c.now [] (init c) := by
  have hpool : TimerPool.init 1 c.now = .ok (init c).timerPool := rfl
  have hnone := TimerPool.pending_init hpool
  refine ⟨⟨TimerPool.wheel_init hpool, ?_, ?_⟩, ⟨fun n nd hn => absurd hn (hnone n),
    fun n n' i hn => absurd hn.1 (hnone n)⟩, ?_⟩
  · intro u hu
    cases hu
  · intro u hu
    cases hu
  · intro p kind calls hk
    simp [running, init, Schedule.init] at hk

theorem timersInv_run (h : Run (fun _ => TimersOk) c t a) : TimersInv c.now t a := by
  induction h with
  | nil => exact timersInv_init c
  | @snoc t a e a' hr hc hst ih =>
    have hs := run_sound hr
    have hm := mapped_run hr fun _ _ _ hc => hc.id
    have he := step_effect hs hst
    exact ⟨poolOk_effect ih.pool he, ownTimers_effect hs hm ih.pool ih.own hc he,
      timeoutOk_effect hs hm ih.pool ih.own ih.timeout he⟩

/-- As long as no id of a running transaction is given again, and no wait is answered while its timer is live, a
wait that returns `TIMEOUT` has lasted its interval, and each transaction has at most the timer of the wait it
is in. -/
theorem timers_kept (h : Run (fun _ => TimersOk) c t a) : a.TimersKept ∧
    ∀ t₁ p seen t₂, t = t₁ ++ .co p (.woke .timeout seen) :: t₂ → TimedOut c.now t₁ p := by
  refine ⟨⟨?_, ?_⟩, ?_⟩
  · intro p hp n n'
    exact (timersInv_run h).own.one n n' _
  · intro k hk n
    exact (timersInv_run h).own.running_none (run_sound h) (mapped_run h fun _ _ _ hc => hc.id) hk n
  · intro t₁ p seen t₂ ht
    obtain ⟨a₁, a₂, h₁, -, hst⟩ := h.event t₁ _ t₂ ht
    cases step_effect (run_sound h₁) hst with
    | woke hc hk hr hw hs =>
      refine (timersInv_run h₁).timeout p _ _ (running_of_task hc hk) fun hact => ?_
      simp [waitReturn, hact] at hr
    | suspend hc hk ha hp hs => cases ha
    | exit hc hk he hb hs => cases he

end

/-- A wait of a second that its timer ends. -/
def timedOutOnce : List Event :=
  [.dispatch 3 { cmd := 7 } (some 0), .co 0 (.parseMsg (.frame 0 { cmd := 7 }) true), .co 0 (.wait 0 1000), .dispatched,
    .update 2000] ++ List.replicate 11 (.timer .nothing none) ++
    [.timer (.callback 0 1) (some 0), .co 0 (.woke .timeout .nothing)]

/-- Whether the events of `timedOutOnce` meet the condition. -/
def timersOk (_ : List Event) (a : App) : Event → Bool
  | .dispatch _ frame _ => decide (frame.dstTransId = 0) && decide (a.getTransaction a.transIdGenerator = none)
  | .mysqlRsp _ _ _ => false
  | .redisRsp _ _ _ => false
  | _ => true

theorem timersOk_ok {t : List Event} {a : App} {e : Event} (h : timersOk t a e = true) : TimersOk a e := by
  refine ⟨?_, ?_, ?_, ?_⟩
  · rintro fd frame p rfl hd
    simpa [timersOk, hd] using h
  · rintro fd frame p rfl hd
    simp [timersOk, hd] at h
  · rintro q rsp p rfl
    cases h
  · rintro q rsp p rfl
    cases h

theorem timers_kept_one : ∃ a : App, a.TimersKept ∧
    ∀ t₁ p seen t₂, timedOutOnce = t₁ ++ .co p (.woke .timeout seen) :: t₂ → TimedOut smallConfig.now t₁ p := by
  obtain ⟨a, ha⟩ : ∃ a, replayIf timersOk [] (init smallConfig) timedOutOnce = some a :=
    Option.isSome_iff_exists.mp (by decide +kernel)
  have hrun : Run (fun _ => TimersOk) smallConfig ([] ++ timedOutOnce) a :=
    replayIf_run (fun _ _ _ _ => timersOk_ok) .nil ha
  exact ⟨a, timers_kept hrun⟩

/-- A wait of a second is answered at once, and in the next, of a minute, the first one's timer is called. -/
def staleTimer : List Event :=
  [.dispatch 3 { cmd := 7 } (some 0), .co 0 (.parseMsg (.frame 0 { cmd := 7 }) true), .co 0 (.wait 0 1000), .dispatched,
    .dispatch 3 { cmd := 21, dstTransId := 1 } (some 0), .co 0 (.woke .active .nothing),
    .co 0 (.wait 500 60000), .dispatched,
    .update 2000] ++ List.replicate 11 (.timer .nothing none) ++ [.timer (.callback 0 1) (some 0)]

/-- The wait of a minute returns `TIMEOUT` after a second and a half, and its timer is left to the running handler. -/
theorem stale_timer : ∃ t a, Run (fun _ _ _ => True) smallConfig t a ∧ ¬ a.TimersKept ∧
    ¬ ∀ t₁ p seen t₂, t = t₁ ++ .co p (.woke .timeout seen) :: t₂ → TimedOut smallConfig.now t₁ p := by
  have h : ((init smallConfig).replay (staleTimer ++ [.co 0 (.woke .timeout .nothing)])).map
      (fun a => (a.running, (a.trans 0).transId, a.timerPool.entries 605, (a.timerPool.nodes 1).map TimeNode.cb)) =
        some (some ⟨0, .code []⟩, 1, [(60500, 1)], some 1) := by decide +kernel
  obtain ⟨a, ha, he⟩ := Option.map_eq_some_iff.mp h
  simp only [Prod.mk.injEq] at he
  obtain ⟨hrun, hid, hpend, hcb⟩ := he
  refine ⟨_, a, replay_run (fun _ _ _ _ => trivial) .nil ha, fun hk => ?_, fun hall => ?_⟩
  · obtain ⟨nd, hnd, hcb⟩ := Option.map_eq_some_iff.mp hcb
    exact hk.none _ hrun 1 ⟨Or.inl ⟨605, 60500, by simp [hpend]⟩, nd, hnd, by rw [hcb, hid]⟩
  · obtain ⟨now, interval, hb, hle⟩ := hall staleTimer 0 .nothing [] rfl
    have hb' : waitBegan staleTimer 0 = some (500, 60000) := by decide
    have hlast : lastUpdate 0 staleTimer = 2000 := by decide
    rw [hb'] at hb
    cases hb
    rw [show smallConfig.now = 0 from rfl, hlast] at hle
    exact absurd hle (by decide +kernel)

end App

end GlobalServer
