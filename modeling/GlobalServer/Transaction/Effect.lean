import GlobalServer.Transaction.Application

/-!
# What one step does

Between its steps the application is in order (`Sound`): the coroutines with a
task run each another transaction, all but the running one stand in `Wait`, an
id in the map is that of the transaction it leads to, and no transaction knows
its timer. From such a state each event has one of the effects listed in
`Effect`, and what later files prove of a step they read off this list.
-/

namespace GlobalServer

open Schedule (Runs Stops)

namespace App

/-- The object is in the free list of the bucket of `x`. -/
def Free (a : App) (x : UInt32) (p : Nat) : Prop := ∃ b, a.transBucketMap x = some b ∧ p ∈ b.transVec

/-- The application is in order. -/
structure Sound (a : App) : Prop where
  sched : a.schedule.Ok
  /-- a coroutine's transaction knows its coroutine and has a frame -/
  owner : ∀ id k, a.schedule.task id = some k → k.trans < a.transTop ∧ (a.trans k.trans).coId = id ∧
    (a.trans k.trans).curFrameData ≠ none ∧ (a.trans k.trans).cmd = (a.trans k.trans).type
  waits : ∀ id k, a.schedule.task id = some k → a.schedule.curco ≠ some id → ∃ kind calls, k.pc = .wait kind calls
  active : ∀ i p, a.getTransaction i = some p → (a.trans p).transId = i ∧ ∃ id pc, a.schedule.task id = some ⟨p, pc⟩
  timer : ∀ p, (a.trans p).timerId = 0
  made : ∀ p < a.transTop, ∃ b, a.transBucketMap (a.trans p).type = some b
  nodup : ∀ x b, a.transBucketMap x = some b → b.transVec.Nodup
  /-- a free object is not in use -/
  free : ∀ x p, a.Free x p → p < a.transTop ∧ (a.trans p).type = x ∧ ∀ id k, a.schedule.task id = some k → k.trans ≠ p

/-! ## Reading the parts of a state -/

@[simp] theorem setTrans_setTrans (a : App) (p : Nat) (t t' : Transaction) :
    (a.setTrans p t).setTrans p t' = a.setTrans p t' := by simp [setTrans]

@[simp] theorem setTrans_schedule_self (a : App) (p : Nat) (t : Transaction) :
    (a.setTrans p t).setSchedule a.schedule = a.setTrans p t := rfl

@[simp] theorem setSchedule_setTrans (a : App) (p : Nat) (t : Transaction) (s : Schedule Task) :
    (a.setSchedule s).setTrans p t = (a.setTrans p t).setSchedule s := rfl

@[simp] theorem generatorTransId_setTrans (a : App) (p : Nat) (t : Transaction) :
    (a.setTrans p t).generatorTransId = a.generatorTransId.setTrans p t := rfl

theorem insertActive_eq (a : App) (i : UInt32) (p : Nat) :
    ∃ m, a.insertActive i p = { a with activeTransMap := m } ∧
      ∀ j q, m.lookup j = some q ↔ a.activeTransMap.lookup j = some q ∨ (j = i ∧ q = p ∧ i ∉ a.activeTransMap) := by
  unfold insertActive
  by_cases hi : i ∈ a.activeTransMap
  · exact ⟨a.activeTransMap, by simp [hi], by simp [hi]⟩
  · refine ⟨a.activeTransMap.insert i p, by simp [hi], fun j q => ?_⟩
    by_cases hj : j = i
    · subst hj
      have : a.activeTransMap.lookup j = none := AList.lookup_eq_none.mpr hi
      simp [this, hi, eq_comm]
    · simp [AList.lookup_insert_ne hj, hj]

/-! ## The parts of `OnState` -/

section
variable {a : App} {p : Nat} (h : (a.trans p).timerId = 0)
include h

theorem cancelTimer_of_zero : a.cancelTimer p = some a := by simp [cancelTimer, h]

theorem onState_active (hs : (a.trans p).state = .active) (hc : (a.trans p).coId ≠ 0) :
    a.onState p = some (a.resume p) := by
  simp [onState, cancelTimer_of_zero h, hs, onActive, hc]

theorem onState_timeout (hs : (a.trans p).state = .timeout) (hc : (a.trans p).coId ≠ 0) :
    a.onState p = some ((a.setTrans p { a.trans p with timerId := 0, reqRandom := 0 }).resume p) := by
  simp [onState, cancelTimer_of_zero h, hs, onTimeOut, hc]

theorem onState_idle (hs : (a.trans p).state = .idle) : a.onState p = some (a.onIdle p) := by
  simp [onState, cancelTimer_of_zero h, hs]

end

theorem Sound.coId {a : App} (h : Sound a) {id p : Nat} {pc : Pc} (hk : a.schedule.task id = some ⟨p, pc⟩) :
    (a.trans p).coId = id ∧ (a.trans p).coId ≠ 0 := by
  have hid := (h.owner id _ hk).2.1
  exact ⟨hid, by rw [hid]; exact Nat.ne_of_gt (h.sched.task_pos hk)⟩

theorem Sound.found {a : App} (h : Sound a) (hc : a.schedule.curco = none) {i : UInt32} {p : Nat}
    (hp : a.getTransaction i = some p) : ∃ id kind calls, a.schedule.task id = some ⟨p, .wait kind calls⟩ := by
  obtain ⟨-, id, pc, hk⟩ := h.active i p hp
  obtain ⟨kind, calls, rfl⟩ := h.waits id _ hk (by simp [hc])
  exact ⟨id, kind, calls, hk⟩

/-! ## Making a transaction -/

/-- What `CreateTransaction` gives: a new object of the bucket of `cmd`, or the one recycled last. -/
inductive Created (a : App) (cmd : UInt32) : Nat → App → Prop
  | new {b : TransactionBucket} (hb : a.transBucketMap cmd = some b) (he : b.transVec = []) :
      Created a cmd a.transTop (a.newTrans (.new cmd b.twoWay))
  | reuse {b : TransactionBucket} {p : Nat} {ps : List Nat} (hb : a.transBucketMap cmd = some b)
      (he : b.transVec = p :: ps) :
      Created a cmd p ((a.setTrans p (a.trans p).construct).setBucket cmd { b with transVec := ps })

theorem createTransaction_created {a c : App} {cmd : UInt32} {p : Nat} (h : a.createTransaction cmd = some (p, c)) :
    Created a cmd p c := by
  unfold createTransaction at h
  split at h
  · cases h
  · obtain ⟨b, hb, h⟩ := Option.map_eq_some_iff.mp h
    unfold bucketCreate at h
    split at h
    · rename_i he
      cases h
      exact .new hb he
    · rename_i q qs he
      cases h
      exact .reuse hb he

/-- The object is as `Construct` leaves it, and nothing of the manager has changed but the objects and the bucket. -/
structure Constructed (a : App) (p : Nat) (c : App) (t : Transaction) : Prop where
  eq : c = { a with trans := Function.update a.trans p t, transTop := c.transTop, transBucketMap := c.transBucketMap }
  construct : t.construct = t

theorem Created.constructed {a c : App} {cmd : UInt32} {p : Nat} (h : Created a cmd p c) :
    Constructed a p c (c.trans p) := by
  cases h with
  | new hb he => exact ⟨by simp [newTrans], by simp [newTrans, Transaction.new, Transaction.construct]⟩
  | reuse hb he => exact ⟨by simp [setBucket, setTrans], by simp [Transaction.construct]⟩

theorem construct_fields {t : Transaction} (h : t.construct = t) :
    t.state = .idle ∧ t.timerId = 0 ∧ t.reqRandom = 0 ∧ t.curFrameData = none ∧ t.mysqlRsp = none ∧
    t.redisRsp = none := by
  rw [← h]
  simp [Transaction.construct]

/-! ## `ProcessFrame` -/

/-- A transaction that has been given its first frame and an id. -/
def started (a : App) (t : Transaction) (fd : Int) (frame : AppHeadFrame) (m : Nat) : Transaction :=
  { t with
    userid := frame.userid, cmd := frame.cmd, fd := fd, selfSvrType := a.serverType, selfInstId := a.instanceId
    selfSvrZone := a.serverZone, oriFrame := frame, curFrameData := some m, curFrame := some m, curFd := fd
    transId := a.transIdGenerator }

/-- A transaction that has got a further frame. -/
def answered (t : Transaction) (fd : Int) (m : Nat) : Transaction :=
  { t with state := .active, curFrameData := some m, curFrame := some m, curFd := fd }

/-- What `ProcessFrame` does with a frame, and the transaction that takes it. -/
inductive Framed (a : App) (fd : Int) (frame : AppHeadFrame) (m : Nat) : Option Nat → App → Prop
  | none (hf : a.frameTarget frame = none) : Framed a fd frame m none a
  | reject {p : Nat} (hd : 0 < frame.dstTransId) (hp : a.getTransaction frame.dstTransId = some p)
      (hr : rejects (a.trans p) frame = true) : Framed a fd frame m none a
  /-- from the main coroutine the handler goes on -/
  | resume {p id : Nat} {kind : WaitKind} {calls : List Call} {s : Schedule Task} (hc : a.schedule.curco = none)
      (hd : 0 < frame.dstTransId) (hp : a.getTransaction frame.dstTransId = some p)
      (hr : rejects (a.trans p) frame = false)
      (hk : a.schedule.task id = some ⟨p, .wait kind calls⟩) (hs : Runs a.schedule s id ⟨p, .wait kind calls⟩) :
      Framed a fd frame m (some p) ((a.setTrans p (answered (a.trans p) fd m)).setSchedule s)
  /-- from a handler the frame is only stored -/
  | store {p : Nat} (hc : a.schedule.curco ≠ none) (hd : 0 < frame.dstTransId)
      (hp : a.getTransaction frame.dstTransId = some p) (hr : rejects (a.trans p) frame = false) :
      Framed a fd frame m (some p) (a.setTrans p (answered (a.trans p) fd m))
  | start {p id : Nat} {c : App} {s : Schedule Task} (hc : a.schedule.curco = none) (hd : frame.dstTransId = 0)
      (hn : Created a frame.cmd p c) (hid : a.schedule.task id = none) (hs : Runs a.schedule s id ⟨p, .start⟩) :
      Framed a fd frame m (some p)
        (((c.generatorTransId.setTrans p { started a (c.trans p) fd frame m with coId := id }).setSchedule s).insertActive
          a.transIdGenerator p)
  /-- from a handler no coroutine is started -/
  | lost {p : Nat} {c : App} (hc : a.schedule.curco ≠ none) (hd : frame.dstTransId = 0)
      (hn : Created a frame.cmd p c) :
      Framed a fd frame m (some p) (c.generatorTransId.setTrans p (started a (c.trans p) fd frame m))

theorem process_answered {a : App} (h : Sound a) {i : UInt32} {p : Nat} (hp : a.getTransaction i = some p) (fd : Int)
    (frame : AppHeadFrame) (m : Nat) (hr : rejects (a.trans p) frame = false) :
    a.process p fd frame m = some ((a.setTrans p (answered (a.trans p) fd m)).resume p, 0) := by
  obtain ⟨-, id, pc, hk⟩ := h.active i p hp
  obtain ⟨d, hd⟩ := Option.ne_none_iff_exists'.mp (h.owner id _ hk).2.2.1
  have hrec : a.received (a.trans p) fd frame m = answered (a.trans p) fd m := by simp [received, answered, hd]
  unfold process
  simp only [hr, Bool.false_eq_true, if_false, hrec]
  rw [onState_active]
  · rfl
  · simpa [answered] using h.timer p
  · simp [answered]
  · simpa [answered] using (h.coId hk).2

theorem process_started {a c : App} {p : Nat} (hn : Constructed a p c (c.trans p)) (fd : Int)
    (frame : AppHeadFrame) (m : Nat) :
    c.process p fd frame m =
      some ((c.setTrans p { started a (c.trans p) fd frame m with transId := (c.trans p).transId }).onIdle p, 0) := by
  obtain ⟨h1, h2, h3, h4, -⟩ := construct_fields hn.construct
  have hr : rejects (c.trans p) frame = false := by simp [rejects, h3]
  have hself : c.serverType = a.serverType ∧ c.instanceId = a.instanceId ∧ c.serverZone = a.serverZone := by
    rw [hn.eq]; simp
  have hrec : c.received (c.trans p) fd frame m = { started a (c.trans p) fd frame m with transId := (c.trans p).transId } := by
    simp [received, h4, started, hself]
  unfold process
  simp only [hr, Bool.false_eq_true, if_false, hrec]
  rw [onState_idle]
  · rfl
  · simpa [started] using h2
  · simpa [started] using h1

theorem processFrame_framed {a a' : App} (h : Sound a) {fd : Int} {frame : AppHeadFrame} {m : Nat}
    {target : Option Nat}
    (hf : a.processFrame fd frame m = some (a', target)) : Framed a fd frame m target a' := by
  unfold processFrame at hf
  cases ht : a.frameTarget frame with
  | none => rw [ht] at hf; cases hf; exact .none ht
  | some r =>
    obtain ⟨p, c⟩ := r
    rw [ht] at hf
    obtain ⟨⟨c', ret⟩, hc, hf⟩ := Option.map_eq_some_iff.mp hf
    cases hf
    unfold frameTarget at ht
    by_cases hd : 0 < frame.dstTransId
    · rw [if_pos hd] at ht
      obtain ⟨p', hp, he⟩ := Option.map_eq_some_iff.mp ht
      cases he
      by_cases hr : rejects (a.trans p) frame = true
      · simp only [process, hr, if_true] at hc
        cases hc
        exact .reject hd hp hr
      · have hr : rejects (a.trans p) frame = false := by simpa using hr
        rw [process_answered h hp fd frame m hr] at hc
        cases hc
        by_cases hcur : a.schedule.curco = none
        · obtain ⟨id, kind, calls, hk⟩ := h.found hcur hp
          have hid := (h.coId hk).1
          have : Framed a fd frame m _ _ := .resume hcur hd hp hr hk (Schedule.resumeTask_runs h.sched hcur hk)
          simpa [resume, answered, hid] using this
        · have : Framed a fd frame m _ _ := .store hcur hd hp hr
          simpa [resume, Schedule.resumeTask_of_running h.sched hcur] using this
    · rw [if_neg hd] at ht
      have hd : frame.dstTransId = 0 := by
        by_contra hne
        exact hd (UInt32.pos_iff_ne_zero.mpr hne)
      have hn := createTransaction_created ht
      have hcon := hn.constructed
      rw [process_started hcon] at hc
      cases hc
      have hgen : c.transIdGenerator = a.transIdGenerator := by rw [hcon.eq]
      have hsch : c.schedule = a.schedule := by rw [hcon.eq]
      unfold onIdle
      by_cases hcur : a.schedule.curco = none
      · have hmain : a.schedule.curid = mainCoroutineId := h.sched.curid_eq.mpr hcur
        obtain ⟨id, hid, hk, hs⟩ := Schedule.doTask_runs h.sched hcur (⟨p, .start⟩ : Task)
        have hcurid : (a.schedule.doTask ⟨p, .start⟩).curid = id := by simp [Schedule.curid, hs.curco]
        have : Framed a fd frame m _ _ := .start hcur hd hn hk hs
        simpa [hsch, hmain, coroutineEnter, hcurid, started, hgen] using this
      · have hmain : a.schedule.curid ≠ mainCoroutineId := fun e => hcur (h.sched.curid_eq.mp e)
        have : Framed a fd frame m _ _ := .lost hcur hd hn
        simpa [hsch, hmain, started, hgen] using this

/-! ## All effects -/

/-- What a handler asks for before it waits: the state it waits in, the clock reading and for how long. -/
inductive Asks (a : App) (p : Nat) : Act → App → Int → Int → WaitKind → Prop
  | callMsg {cmd svrType instId len r : UInt32} {out : Int × AppHeadFrame} {now : Int} (hr : isRandom r = true) :
      Asks a p (.callMsg cmd svrType instId len r out now) (a.setReqRandom p r) now 5000 .msg
  | wait {now interval : Int} : Asks a p (.wait now interval) a now interval .plain
  | mysqlQuery {fields : Nat} {now : Int} :
      Asks a p (.mysqlQuery fields now) (a.addMysqlReq (a.trans p).transId) now 120000 (.mysql a.reqTop fields)
  | redisExecute {now : Int} :
      Asks a p (.redisExecute now) (a.addRedisReq (a.trans p).transId) now 120000 (.redis a.reqTop)

/-- How a call goes on when its `Wait` returns: what it reads, what it makes of the transaction and where it goes. -/
inductive Woken (a : App) (p : Nat) (calls : List Call) : WaitKind → WaitReturn → Seen → Transaction → Pc → Prop
  | plain {ret : WaitReturn} : Woken a p calls .plain ret .nothing { a.trans p with state := .idle } (.code calls)
  | msgTimeout : Woken a p calls .msg .timeout .nothing { a.trans p with state := .idle } (.code calls)
  | msgActive {m : Nat} {frame : AppHeadFrame} (hm : (a.trans p).curFrame = some m)
      (hs : a.shows (.frame m frame) = true) :
      Woken a p calls .msg .active (.frame m frame) { a.trans p with state := .idle } (.code calls)
  | mysqlNull {ret : WaitReturn} {q fields : Nat} (hq : (a.trans p).mysqlRsp = none) :
      Woken a p calls (.mysql q fields) ret .nothing { a.trans p with state := .idle } (.code calls)
  | mysqlEnd {ret : WaitReturn} {q fields q' : Nat} {rsp : MysqlRsp} (hq : (a.trans p).mysqlRsp = some q')
      (hs : a.shows (.mysql q' rsp) = true) :
      Woken a p calls (.mysql q fields) ret (.mysql q' rsp) { a.trans p with state := .idle, mysqlRsp := none } (.code calls)
  | mysqlRow {ret : WaitReturn} {q fields q' n : Nat} {rsp : MysqlRsp} (hq : (a.trans p).mysqlRsp = some q')
      (hs : a.shows (.mysql q' rsp) = true) (hn : rsp.rows = n + 1) :
      Woken a p calls (.mysql q fields) ret (.mysql q' rsp) { a.trans p with state := .idle }
        (.code (⟨q', n⟩ :: calls))
  | redisNull {ret : WaitReturn} {q : Nat} (hq : (a.trans p).redisRsp = none) :
      Woken a p calls (.redis q) ret .nothing { a.trans p with state := .idle } (.code calls)
  | redisError {ret : WaitReturn} {q q' : Nat} {rsp : RedisRsp} (hq : (a.trans p).redisRsp = some q')
      (hs : a.shows (.redis q' rsp) = true) (he : rsp.errCode ≠ 0) :
      Woken a p calls (.redis q) ret (.redis q' rsp) { a.trans p with state := .idle } (.code calls)
  | redisEnd {ret : WaitReturn} {q q' : Nat} {rsp : RedisRsp} (hq : (a.trans p).redisRsp = some q')
      (hs : a.shows (.redis q' rsp) = true) (he : rsp.errCode = 0) :
      Woken a p calls (.redis q) ret (.redis q' rsp) { a.trans p with state := .idle, redisRsp := none } (.code calls)

/-- How a handler ends, and with what answer. -/
inductive Ends (a : App) (p : Nat) : Pc → Act → Prop
  | parse {m : Nat} {frame : AppHeadFrame} (hm : (a.trans p).curFrame = some m)
      (hs : a.shows (.frame m frame) = true) :
      Ends a p .start (.parseMsg (.frame m frame) false)
  | reply {m : Nat} {frame : AppHeadFrame} {len : UInt32} {out : Option (Int × AppHeadFrame)}
      (ht : (a.trans p).twoWay = true)
      (hm : (a.trans p).curFrame = some m) (hs : a.shows (.frame m frame) = true)
      (ho : out = a.router.sendMsg (respond (a.trans p) frame len)) :
      Ends a p (.code []) (.onRequest 0 (.frame m frame) len out)
  | silent {ret : Int} {len : UInt32} (ht : ¬ ((a.trans p).twoWay = true ∧ ret = 0)) :
      Ends a p (.code []) (.onRequest ret .nothing len none)

inductive Effect (a : App) : Event → App → Prop
  | update {now : Int} (hi : a.idle = true) : Effect a (.update now) (a.setPool (a.timerPool.beginUpdate now))
  | tick {shown : TimerPool.Shown UInt32} {u : Updating} {pool : TimerPool UInt32} (hc : a.schedule.curco = none)
      (hu : a.timerPool.updating = some u) (hn : a.timerPool.updateNext u = .ok (pool, shown))
      (ht : a.timerTarget shown = none) : Effect a (.timer shown none) (a.setPool pool)
  | fire {node p id : Nat} {cb : UInt32} {u : Updating} {pool : TimerPool UInt32} {kind : WaitKind}
      {calls : List Call}
      {s : Schedule Task} (hc : a.schedule.curco = none) (hu : a.timerPool.updating = some u)
      (hn : a.timerPool.updateNext u = .ok (pool, .callback node cb)) (hp : a.getTransaction cb = some p)
      (hk : a.schedule.task id = some ⟨p, .wait kind calls⟩) (hs : Runs a.schedule s id ⟨p, .wait kind calls⟩) :
      Effect a (.timer (.callback node cb) (some p))
        (((a.setPool pool).setTrans p { a.trans p with state := .timeout, timerId := 0, reqRandom := 0 }).setSchedule s)
  | dispatch {fd : Int} {frame : AppHeadFrame} {target : Option Nat} {a' : App} (hi : a.idle = true)
      (hf : Framed ((a.setLoop (.frame a.msgTop)).takeMsg frame) fd frame a.msgTop target a') :
      Effect a (.dispatch fd frame target) a'
  | mysqlNone {q : Nat} {rsp : MysqlRsp} (hi : a.idle = true) (hq : (q, rsp.transId) ∈ a.mysqlReqs)
      (hp : a.getTransaction rsp.transId = none) : Effect a (.mysqlRsp q rsp none) (a.pickMysqlRsp q rsp)
  | mysqlRsp {q p id : Nat} {rsp : MysqlRsp} {kind : WaitKind} {calls : List Call} {s : Schedule Task}
      (hi : a.idle = true)
      (hq : (q, rsp.transId) ∈ a.mysqlReqs) (hp : a.getTransaction rsp.transId = some p)
      (hk : a.schedule.task id = some ⟨p, .wait kind calls⟩) (hs : Runs a.schedule s id ⟨p, .wait kind calls⟩) :
      Effect a (.mysqlRsp q rsp (some p))
        (((a.pickMysqlRsp q rsp).setTrans p { a.trans p with mysqlRsp := some q, state := .active }).setSchedule s)
  | redisNone {q : Nat} {rsp : RedisRsp} (hi : a.idle = true) (hq : (q, rsp.transId) ∈ a.redisReqs)
      (hp : a.getTransaction rsp.transId = none) : Effect a (.redisRsp q rsp none) (a.pickRedisRsp q rsp)
  | redisRsp {q p id : Nat} {rsp : RedisRsp} {kind : WaitKind} {calls : List Call} {s : Schedule Task}
      (hi : a.idle = true)
      (hq : (q, rsp.transId) ∈ a.redisReqs) (hp : a.getTransaction rsp.transId = some p)
      (hk : a.schedule.task id = some ⟨p, .wait kind calls⟩) (hs : Runs a.schedule s id ⟨p, .wait kind calls⟩) :
      Effect a (.redisRsp q rsp (some p))
        (((a.pickRedisRsp q rsp).setTrans p { a.trans p with redisRsp := some q, state := .active }).setSchedule s)
  | dispatched (hc : a.schedule.curco = none) (hl : a.loop ≠ .idle) : Effect a .dispatched (a.setLoop .idle)
  | recycle {m : Nat} (hl : a.loop ≠ .frame m) : Effect a (.recycle m) (a.dropMsg m)
  | routers {routerInfoVec : List Int} : Effect a (.routers routerInfoVec) (a.setRouters routerInfoVec)
  | parse {p id m : Nat} {frame : AppHeadFrame} {s : Schedule Task} (hc : a.schedule.curco = some id)
      (hk : a.schedule.task id = some ⟨p, .start⟩) (hm : (a.trans p).curFrame = some m)
      (hsh : a.shows (.frame m frame) = true) (hs : Runs a.schedule s id ⟨p, .code []⟩) :
      Effect a (.co p (.parseMsg (.frame m frame) true)) (a.setSchedule s)
  | curFrame {p id m : Nat} {frame : AppHeadFrame} {calls : List Call} (hc : a.schedule.curco = some id)
      (hk : a.schedule.task id = some ⟨p, .code calls⟩) (hm : (a.trans p).curFrame = some m)
      (hsh : a.shows (.frame m frame) = true) : Effect a (.co p (.curFrame (.frame m frame))) a
  | sendMsg {p id : Nat} {calls : List Call} {cmd svrType instId len r : UInt32} {out : Option (Int × AppHeadFrame)}
      (hc : a.schedule.curco = some id) (hk : a.schedule.task id = some ⟨p, .code calls⟩) (hr : isRandom r = true) :
      Effect a (.co p (.sendMsg cmd svrType instId len r out)) (a.setReqRandom p r)
  | nested {p id : Nat} {calls : List Call} {fd : Int} {frame : AppHeadFrame} {target : Option Nat} {a' : App}
      (hc : a.schedule.curco = some id) (hk : a.schedule.task id = some ⟨p, .code calls⟩)
      (hf : Framed (a.takeMsg frame) fd frame a.msgTop target a') :
      Effect a (.co p (.processFrame fd frame target)) a'
  | suspend {p id tid : Nat} {calls : List Call} {act : Act} {b : App} {now interval : Int} {kind : WaitKind}
      {pool : TimerPool UInt32} {s : Schedule Task} (hc : a.schedule.curco = some id)
      (hk : a.schedule.task id = some ⟨p, .code calls⟩) (ha : Asks a p act b now interval kind)
      (hp : a.timerPool.addTimer now interval (a.trans p).transId = .ok (pool, tid))
      (hs : Stops a.schedule s id (some ⟨p, .wait kind calls⟩)) :
      Effect a (.co p act) ((b.setPool pool).setSchedule s)
  | woke {p id : Nat} {calls : List Call} {kind : WaitKind} {ret : WaitReturn} {seen : Seen}
      {t : Transaction} {pc : Pc}
      {s : Schedule Task} (hc : a.schedule.curco = some id) (hk : a.schedule.task id = some ⟨p, .wait kind calls⟩)
      (hr : waitReturn (a.trans p) = ret) (hw : Woken a p calls kind ret seen t pc)
      (hs : Runs a.schedule s id ⟨p, pc⟩) :
      Effect a (.co p (.woke ret seen)) ((a.setTrans p t).setSchedule s)
  | rowNext {p id n : Nat} {call : Call} {calls : List Call} {s : Schedule Task} (hc : a.schedule.curco = some id)
      (hk : a.schedule.task id = some ⟨p, .code (call :: calls)⟩) (hn : call.rows = n + 1)
      (hs : Runs a.schedule s id ⟨p, .code (⟨call.rsp, n⟩ :: calls)⟩) :
      Effect a (.co p (.row .nothing)) (a.setSchedule s)
  | rowEnd {p id : Nat} {call : Call} {calls : List Call} {rsp : MysqlRsp} {s : Schedule Task}
      (hc : a.schedule.curco = some id)
      (hk : a.schedule.task id = some ⟨p, .code (call :: calls)⟩) (hn : call.rows = 0)
      (hsh : a.shows (.mysql call.rsp rsp) = true) (hs : Runs a.schedule s id ⟨p, .code calls⟩) :
      Effect a (.co p (.row (.mysql call.rsp rsp)))
        ((a.setTrans p { a.trans p with mysqlRsp := none }).setSchedule s)
  | exit {p id : Nat} {pc : Pc} {act : Act} {b : TransactionBucket} {s : Schedule Task}
      (hc : a.schedule.curco = some id)
      (hk : a.schedule.task id = some ⟨p, pc⟩) (he : Ends a p pc act) (hb : a.transBucketMap (a.trans p).cmd = some b)
      (hs : Stops a.schedule s id none) :
      Effect a (.co p act)
        (((a.eraseActive (a.trans p).transId).setBucket (a.trans p).cmd { b with transVec := p :: b.transVec }).setSchedule s)

theorem idle_spec {a : App} : a.idle = true ↔
    a.schedule.curco = none ∧ a.loop = .idle ∧ a.timerPool.updating = none := by
  simp [idle, and_assoc]

theorem curFrame_eq_some {a : App} {p : Nat} {seen : Seen} {frame : AppHeadFrame} : a.curFrame p seen = some frame ↔
    ∃ m, seen = .frame m frame ∧ (a.trans p).curFrame = some m ∧ a.shows (.frame m frame) = true := by
  cases seen with
  | frame m frame' =>
    simp only [curFrame, Option.ite_none_right_eq_some, Option.some.injEq, Seen.frame.injEq]
    constructor
    · rintro ⟨⟨h1, h2⟩, rfl⟩
      exact ⟨m, ⟨rfl, rfl⟩, h1, h2⟩
    · rintro ⟨m', ⟨rfl, rfl⟩, h1, h2⟩
      exact ⟨⟨h1, h2⟩, rfl⟩
  | _ => simp [curFrame]

theorem ite_pair_eq_some {α β : Type} {P : α → β → Prop} {x : α} {y : β} [Decidable (P x y)] {r : α × β} :
    (if P x y then some (x, y) else none) = some r ↔ (x = r.1 ∧ y = r.2) ∧ P r.1 r.2 := by
  rw [Option.ite_none_right_eq_some, Option.some.injEq]
  constructor
  · rintro ⟨hp, rfl⟩
    exact ⟨⟨rfl, rfl⟩, hp⟩
  · rintro ⟨⟨rfl, rfl⟩, hp⟩
    exact ⟨hp, rfl⟩

theorem mysqlRsp_eq_some {a : App} {p : Nat} {seen : Seen} {r : Nat × MysqlRsp} : a.mysqlRsp p seen = some r ↔
    seen = .mysql r.1 r.2 ∧ (a.trans p).mysqlRsp = some r.1 ∧ a.shows (.mysql r.1 r.2) = true := by
  cases seen with
  | mysql q rsp =>
    rw [mysqlRsp, Seen.mysql.injEq]
    exact ite_pair_eq_some (P := fun q rsp => (a.trans p).mysqlRsp = some q ∧ a.shows (.mysql q rsp) = true)
  | _ => simp [mysqlRsp]

theorem redisRsp_eq_some {a : App} {p : Nat} {seen : Seen} {r : Nat × RedisRsp} : a.redisRsp p seen = some r ↔
    seen = .redis r.1 r.2 ∧ (a.trans p).redisRsp = some r.1 ∧ a.shows (.redis r.1 r.2) = true := by
  cases seen with
  | redis q rsp =>
    rw [redisRsp, Seen.redis.injEq]
    exact ite_pair_eq_some (P := fun q rsp => (a.trans p).redisRsp = some q ∧ a.shows (.redis q rsp) = true)
  | _ => simp [redisRsp]

theorem wait_eq_some {b a' : App} {p : Nat} {now interval : Int} {pc : Pc} (ht : (b.trans p).timerId = 0)
    (hw : b.wait p now interval pc = some a') :
    ∃ pool tid, b.timerPool.addTimer now interval (b.trans p).transId = .ok (pool, tid) ∧
      a' = (b.setPool pool).setSchedule (b.schedule.yield ⟨p, pc⟩) := by
  simp only [wait, Option.ite_none_left_eq_some] at hw
  obtain ⟨-, hw⟩ := hw
  simp only [setTimer, cancelTimer_of_zero ht] at hw
  cases hx : b.timerPool.addTimer now interval (b.trans p).transId with
  | error f => simp [hx, Except.toOption] at hw
  | ok r => exact ⟨r.1, r.2, rfl, by simpa [hx, Except.toOption] using hw.symm⟩

section
variable {a a' : App} (h : Sound a)
include h

theorem timer_effect {shown : TimerPool.Shown UInt32} {target : Option Nat}
    (hst : a.step (.timer shown target) = some a') :
    Effect a (.timer shown target) a' := by
  simp only [step, Option.ite_none_right_eq_some] at hst
  obtain ⟨⟨hc, rfl⟩, hst⟩ := hst
  have hc : a.schedule.curco = none := by simpa using hc
  obtain ⟨u, hu, hst⟩ := Option.bind_eq_some_iff.mp hst
  obtain ⟨r, hr, hst⟩ := Option.bind_eq_some_iff.mp hst
  obtain ⟨rfl, hst⟩ := Option.ite_none_right_eq_some.mp hst
  have hn : a.timerPool.updateNext u = .ok (r.1, r.2) := by
    cases hx : a.timerPool.updateNext u with
    | error f => simp [hx, Except.toOption] at hr
    | ok x => simpa [hx, Except.toOption] using hr
  cases ht : a.timerTarget r.2 with
  | none =>
    have ha : a' = a.setPool r.1 := by
      cases hsh : r.2 with
      | callback node cb =>
        have hg : (a.setPool r.1).getTransaction cb = none := by simpa [timerTarget, hsh, getTransaction] using ht
        simpa [hsh, onShown, timerCallback, hg] using hst.symm
      | nothing => simpa [hsh, onShown] using hst.symm
      | done => simpa [hsh, onShown] using hst.symm
    rw [ha]
    exact .tick hc hu hn ht
  | some p =>
    cases hsh : r.2 with
    | callback node cb =>
      rw [hsh] at hn ht hst
      have hp : a.getTransaction cb = some p := ht
      have hg : (a.setPool r.1).getTransaction cb = some p := hp
      obtain ⟨id, kind, calls, hk⟩ := h.found hc hp
      obtain ⟨hid, h0⟩ := h.coId hk
      have hs := Schedule.resumeTask_runs h.sched hc hk
      simp only [onShown, timerCallback, hg] at hst
      rw [onState_timeout (by simp [h.timer p]) (by simp) (by simpa using h0)] at hst
      cases hst
      have := Effect.fire hc hu hn hp hk hs
      simpa [resume, hid] using this
    | nothing => simp [hsh, timerTarget] at ht
    | done => simp [hsh, timerTarget] at ht

theorem dispatch_effect {fd : Int} {frame : AppHeadFrame} {target : Option Nat}
    (hst : a.step (.dispatch fd frame target) = some a') : Effect a (.dispatch fd frame target) a' := by
  simp only [step, Option.ite_none_right_eq_some] at hst
  obtain ⟨hi, hst⟩ := hst
  obtain ⟨r, hr, hst⟩ := Option.bind_eq_some_iff.mp hst
  obtain ⟨ht, he⟩ := Option.ite_none_right_eq_some.mp hst
  cases he
  have h' : Sound ((a.setLoop (.frame a.msgTop)).takeMsg frame) :=
    ⟨h.sched, h.owner, h.waits, h.active, h.timer, h.made, h.nodup, h.free⟩
  subst ht
  exact .dispatch hi (processFrame_framed h' hr)

theorem mysqlRsp_effect {q : Nat} {rsp : MysqlRsp} {target : Option Nat}
    (hst : a.step (.mysqlRsp q rsp target) = some a') :
    Effect a (.mysqlRsp q rsp target) a' := by
  simp only [step, Option.ite_none_right_eq_some] at hst
  obtain ⟨⟨hi, hq, rfl⟩, hst⟩ := hst
  have hc := (idle_spec.mp hi).1
  cases hp : a.getTransaction rsp.transId with
  | none =>
    have hg : (a.pickMysqlRsp q rsp).getTransaction rsp.transId = none := hp
    simp only [mgrMysqlRsp, hg, Option.some.injEq] at hst
    subst hst
    exact .mysqlNone hi hq hp
  | some p =>
    have hg : (a.pickMysqlRsp q rsp).getTransaction rsp.transId = some p := hp
    obtain ⟨id, kind, calls, hk⟩ := h.found hc hp
    obtain ⟨hid, h0⟩ := h.coId hk
    simp only [mgrMysqlRsp, hg, processMysqlRsp] at hst
    rw [onState_active (by simp [h.timer p]) (by simp) (by simpa using h0)] at hst
    cases hst
    have := Effect.mysqlRsp hi hq hp hk (Schedule.resumeTask_runs h.sched hc hk)
    simpa [resume, hid] using this

theorem redisRsp_effect {q : Nat} {rsp : RedisRsp} {target : Option Nat}
    (hst : a.step (.redisRsp q rsp target) = some a') :
    Effect a (.redisRsp q rsp target) a' := by
  simp only [step, Option.ite_none_right_eq_some] at hst
  obtain ⟨⟨hi, hq, rfl⟩, hst⟩ := hst
  have hc := (idle_spec.mp hi).1
  cases hp : a.getTransaction rsp.transId with
  | none =>
    have hg : (a.pickRedisRsp q rsp).getTransaction rsp.transId = none := hp
    simp only [mgrRedisRsp, hg, Option.some.injEq] at hst
    subst hst
    exact .redisNone hi hq hp
  | some p =>
    have hg : (a.pickRedisRsp q rsp).getTransaction rsp.transId = some p := hp
    obtain ⟨id, kind, calls, hk⟩ := h.found hc hp
    obtain ⟨hid, h0⟩ := h.coId hk
    simp only [mgrRedisRsp, hg, processRedisRsp] at hst
    rw [onState_active (by simp [h.timer p]) (by simp) (by simpa using h0)] at hst
    cases hst
    have := Effect.redisRsp hi hq hp hk (Schedule.resumeTask_runs h.sched hc hk)
    simpa [resume, hid] using this

theorem exit_eq {p id : Nat} {pc : Pc} (hc : a.schedule.curco = some id) (hk : a.schedule.task id = some ⟨p, pc⟩) :
    ∃ b, a.transBucketMap (a.trans p).cmd = some b ∧ Stops a.schedule a.schedule.taskEnd id none ∧ a.coroutineExit p =
      ((a.eraseActive (a.trans p).transId).setBucket (a.trans p).cmd { b with transVec := p :: b.transVec }).setSchedule
        a.schedule.taskEnd := by
  obtain ⟨hlt, -, -, hcmd⟩ := h.owner id _ hk
  obtain ⟨b, hb⟩ := h.made p hlt
  simp only at hcmd
  rw [← hcmd] at hb
  exact ⟨b, hb, Schedule.taskEnd_stops h.sched hc, by simp [coroutineExit, recyleTransaction, hb]⟩

theorem asks_effect {p id : Nat} {calls : List Call} {act : Act} {b : App} {now interval : Int} {kind : WaitKind}
    (hc : a.schedule.curco = some id) (hk : a.schedule.task id = some ⟨p, .code calls⟩)
    (ha : Asks a p act b now interval kind)
    (hw : b.wait p now interval (.wait kind calls) = some a') : Effect a (.co p act) a' := by
  have hb : b.schedule = a.schedule ∧ b.timerPool = a.timerPool ∧ (b.trans p).transId = (a.trans p).transId ∧
      (b.trans p).timerId = 0 := by
    cases ha <;> simp [setReqRandom, h.timer p]
  obtain ⟨h1, h2, h3, h4⟩ := hb
  obtain ⟨pool, tid, hp, rfl⟩ := wait_eq_some h4 hw
  rw [h2, h3] at hp
  rw [h1]
  exact .suspend hc hk ha hp (Schedule.yield_stops h.sched hc _)

theorem woke_effect {p id : Nat} {kind : WaitKind} {calls : List Call} {ret : WaitReturn} {seen : Seen}
    (hc : a.schedule.curco = some id) (hk : a.schedule.task id = some ⟨p, .wait kind calls⟩)
    (hst : a.act p (.wait kind calls) (.woke ret seen) = some a') : Effect a (.co p (.woke ret seen)) a' := by
  simp only [act, Option.ite_none_right_eq_some] at hst
  obtain ⟨hr, hst⟩ := hst
  have runs : ∀ pc, Runs a.schedule (a.schedule.goto ⟨p, pc⟩) id ⟨p, pc⟩ := fun pc => Schedule.goto_runs h.sched hc _
  cases kind with
  | plain =>
    simp only [woke, Option.ite_none_right_eq_some, Option.some.injEq] at hst
    obtain ⟨rfl, rfl⟩ := hst
    exact .woke hc hk hr .plain (runs _)
  | msg =>
    cases ret with
    | timeout =>
      simp only [woke, Option.ite_none_right_eq_some, Option.some.injEq] at hst
      obtain ⟨rfl, rfl⟩ := hst
      exact .woke hc hk hr .msgTimeout (runs _)
    | active =>
      obtain ⟨frame, hf, rfl⟩ := Option.map_eq_some_iff.mp hst
      obtain ⟨m, rfl, hm, hs⟩ := curFrame_eq_some.mp hf
      exact .woke hc hk hr (.msgActive (by simpa using hm) hs) (runs _)
  | mysql q fields =>
    simp only [woke] at hst
    rcases Option.eq_none_or_eq_some ((a.setTrans p { a.trans p with state := .idle }).trans p).mysqlRsp with hq | ⟨q', hq⟩
    · simp only [hq, Option.ite_none_right_eq_some, Option.some.injEq] at hst
      obtain ⟨rfl, rfl⟩ := hst
      exact .woke hc hk hr (.mysqlNull (by simpa using hq)) (runs _)
    · simp only [hq] at hst
      obtain ⟨r, hf, rfl⟩ := Option.map_eq_some_iff.mp hst
      obtain ⟨rfl, hm, hs⟩ := mysqlRsp_eq_some.mp hf
      have hm : (a.trans p).mysqlRsp = some r.1 := by simpa using hm
      have fin := Effect.woke hc hk hr (.mysqlEnd hm hs) (runs (.code calls))
      unfold mysqlQueryRsp
      by_cases he : r.2.errCode ≠ 0 ∨ fields ≠ r.2.numFields
      · rw [if_pos he]
        simpa [clearMysqlRsp, goto] using fin
      · rw [if_neg he]
        cases hn : r.2.rows with
        | zero => simpa [clearMysqlRsp, goto] using fin
        | succ n => exact .woke hc hk hr (.mysqlRow hm hs hn) (runs _)
  | redis q =>
    simp only [woke] at hst
    rcases Option.eq_none_or_eq_some ((a.setTrans p { a.trans p with state := .idle }).trans p).redisRsp with hq | ⟨q', hq⟩
    · simp only [hq, Option.ite_none_right_eq_some, Option.some.injEq] at hst
      obtain ⟨rfl, rfl⟩ := hst
      exact .woke hc hk hr (.redisNull (by simpa using hq)) (runs _)
    · simp only [hq] at hst
      obtain ⟨r, hf, rfl⟩ := Option.map_eq_some_iff.mp hst
      obtain ⟨rfl, hm, hs⟩ := redisRsp_eq_some.mp hf
      have hm : (a.trans p).redisRsp = some r.1 := by simpa using hm
      unfold redisExecuteRsp
      by_cases he : r.2.errCode = 0
      · rw [if_neg (by simp [he])]
        simpa [goto] using Effect.woke hc hk hr (.redisEnd hm hs he) (runs (.code calls))
      · rw [if_pos he]
        exact .woke hc hk hr (.redisError hm hs he) (runs _)

theorem row_effect {p id : Nat} {call : Call} {calls : List Call} {seen : Seen} (hc : a.schedule.curco = some id)
    (hk : a.schedule.task id = some ⟨p, .code (call :: calls)⟩) (hst : a.row p call calls seen = some a') :
    Effect a (.co p (.row seen)) a' := by
  have runs : ∀ pc, Runs a.schedule (a.schedule.goto ⟨p, pc⟩) id ⟨p, pc⟩ := fun pc => Schedule.goto_runs h.sched hc _
  unfold row at hst
  split at hst
  · rename_i hn
    simp only [Option.ite_none_right_eq_some, Option.some.injEq] at hst
    obtain ⟨⟨rfl, hs⟩, rfl⟩ := hst
    simpa [mysqlQueryRow, hn, clearMysqlRsp, goto] using Effect.rowEnd hc hk hn hs (runs (.code calls))
  · rename_i n hn
    cases hst
    simpa [mysqlQueryRow, hn, goto] using Effect.rowNext hc hk hn (runs (.code (⟨call.rsp, n⟩ :: calls)))
  · cases hst

theorem onRequest_effect {p id : Nat} {ret : Int} {seen : Seen} {len : UInt32} {out : Option (Int × AppHeadFrame)}
    (hc : a.schedule.curco = some id) (hk : a.schedule.task id = some ⟨p, .code []⟩)
    (hst : a.onRequest p ret seen len out = some a') : Effect a (.co p (.onRequest ret seen len out)) a' := by
  obtain ⟨b, hb, hs, he⟩ := exit_eq h hc hk
  unfold onRequest at hst
  by_cases ht : (a.trans p).twoWay = true ∧ ret = 0
  · rw [if_pos ht] at hst
    obtain ⟨frame, hf, hans⟩ := Option.bind_eq_some_iff.mp hst
    obtain ⟨ho, he'⟩ := Option.ite_none_right_eq_some.mp hans
    obtain ⟨m, hseen, hm, hsh⟩ := curFrame_eq_some.mp hf
    cases he'
    subst hseen
    obtain ⟨htw, rfl⟩ := ht
    rw [he]
    exact .exit hc hk (.reply htw hm hsh ho) hb hs
  · rw [if_neg ht, Option.ite_none_right_eq_some] at hst
    obtain ⟨⟨rfl, rfl⟩, hst⟩ := hst
    cases hst
    rw [he]
    exact .exit hc hk (.silent ht) hb hs

theorem act_effect {p id : Nat} {pc : Pc} {act : Act} (hc : a.schedule.curco = some id)
    (hk : a.schedule.task id = some ⟨p, pc⟩) (hst : a.act p pc act = some a') : Effect a (.co p act) a' := by
  have runs : ∀ pc, Runs a.schedule (a.schedule.goto ⟨p, pc⟩) id ⟨p, pc⟩ := fun pc => Schedule.goto_runs h.sched hc _
  cases pc with
  | start =>
    cases act with
    | parseMsg seen ok =>
      obtain ⟨frame, hf, rfl⟩ := Option.map_eq_some_iff.mp hst
      obtain ⟨m, rfl, hm, hsh⟩ := curFrame_eq_some.mp hf
      cases ok with
      | true => exact .parse hc hk hm hsh (runs _)
      | false =>
        obtain ⟨b, hb, hs, he⟩ := exit_eq h hc hk
        simp only [Bool.false_eq_true, if_false, he]
        exact .exit hc hk (.parse hm hsh) hb hs
    | _ => simp [App.act] at hst
  | wait kind calls =>
    cases act with
    | woke ret seen => exact woke_effect h hc hk hst
    | _ => simp [App.act] at hst
  | code calls =>
    cases act with
    | parseMsg seen ok => simp [App.act] at hst
    | woke ret seen => simp [App.act] at hst
    | curFrame seen =>
      simp only [App.act] at hst
      obtain ⟨frame, hf, rfl⟩ := Option.map_eq_some_iff.mp hst
      obtain ⟨m, rfl, hm, hsh⟩ := curFrame_eq_some.mp hf
      exact .curFrame hc hk hm hsh
    | sendMsg cmd svrType instId len r out =>
      simp only [App.act, Option.ite_none_right_eq_some, Option.some.injEq] at hst
      obtain ⟨⟨hr, -⟩, rfl⟩ := hst
      exact .sendMsg hc hk hr
    | callMsg cmd svrType instId len r out now =>
      simp only [App.act, Option.ite_none_right_eq_some] at hst
      obtain ⟨⟨hr, -⟩, hst⟩ := hst
      exact asks_effect h hc hk (.callMsg hr) hst
    | wait now interval => exact asks_effect h hc hk .wait (by simpa [App.act] using hst)
    | mysqlQuery fields now => exact asks_effect h hc hk .mysqlQuery (by simpa [App.act, mysqlQuery] using hst)
    | redisExecute now => exact asks_effect h hc hk .redisExecute (by simpa [App.act, redisExecute] using hst)
    | processFrame fd frame target =>
      simp only [App.act] at hst
      obtain ⟨r, hr, hst⟩ := Option.bind_eq_some_iff.mp hst
      obtain ⟨rfl, he⟩ := Option.ite_none_right_eq_some.mp hst
      cases he
      have h' : Sound (a.takeMsg frame) := ⟨h.sched, h.owner, h.waits, h.active, h.timer, h.made, h.nodup, h.free⟩
      exact .nested hc hk (processFrame_framed h' hr)
    | row seen =>
      cases calls with
      | nil => simp [App.act] at hst
      | cons call calls => exact row_effect h hc hk hst
    | onRequest ret seen len out =>
      cases calls with
      | nil => exact onRequest_effect h hc hk hst
      | cons call calls => simp [App.act] at hst

theorem step_effect {e : Event} (hst : a.step e = some a') : Effect a e a' := by
  cases e with
  | update now =>
    simp only [step, Option.ite_none_right_eq_some, Option.some.injEq] at hst
    obtain ⟨hi, rfl⟩ := hst
    exact .update hi
  | timer shown target => exact timer_effect h hst
  | dispatch fd frame target => exact dispatch_effect h hst
  | mysqlRsp q rsp target => exact mysqlRsp_effect h hst
  | redisRsp q rsp target => exact redisRsp_effect h hst
  | dispatched =>
    simp only [step, Option.ite_none_right_eq_some, Option.some.injEq, Option.isNone_iff_eq_none] at hst
    obtain ⟨⟨hc, hl⟩, rfl⟩ := hst
    exact .dispatched hc hl
  | recycle m =>
    simp only [step, Option.ite_none_right_eq_some, Option.some.injEq] at hst
    obtain ⟨hl, rfl⟩ := hst
    exact .recycle hl
  | routers routerInfoVec => cases hst; exact .routers
  | co p act =>
    simp only [step] at hst
    cases hr : a.running with
    | none => simp [hr] at hst
    | some t =>
      obtain ⟨id, hc, hk⟩ := Option.bind_eq_some_iff.mp hr
      simp only [hr, Option.ite_none_right_eq_some] at hst
      obtain ⟨rfl, hst⟩ := hst
      exact act_effect h hc hk hst

end

end App

end GlobalServer
