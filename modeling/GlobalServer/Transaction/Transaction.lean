import GlobalServer.Base.TimePool
import GlobalServer.Coroutine.Schedule
import GlobalServer.Transaction.Frame
import Mathlib.Data.List.AList
import Mathlib.Tactic.Simps.Basic

/-!
# Transactions and their manager

`Transaction`, `TransactionBucket` and `TransactionMgrImpl`. A handler runs on
a coroutine, so `OnState` returns when the handler has been set running, and
what the handler does next is a step of its own (`Task` says where it
stands). A function that faults is `none`.

Transaction objects are never deleted while the application runs: `trans`
gives the object at each address, of which `transTop` have been made. A
message is named by when it was taken from its pool, so that a pointer to a
message that has gone back there is told from one to its successor.
-/

namespace GlobalServer

inductive TransState where
  | idle
  | active
  | timeout
  deriving DecidableEq

inductive WaitReturn where
  | active
  | timeout
  deriving DecidableEq

structure Transaction where
  /-- the bucket that made the object, which fixes its class, and whether that is a `TwoWayTransaction` -/
  type : UInt32
  twoWay : Bool
  state : TransState
  timerId : Nat
  transId : UInt32
  cmd : UInt32
  userid : UInt64
  coId : Nat
  fd : Int
  curFd : Int
  selfSvrType : UInt32
  selfInstId : UInt32
  selfSvrZone : UInt32
  reqRandom : UInt32
  curFrame : Option Nat
  oriFrame : AppHeadFrame
  curFrameData : Option Nat
  mysqlRsp : Option Nat
  redisRsp : Option Nat

namespace Transaction

def construct (t : Transaction) : Transaction :=
  { t with
    transId := 0, userid := 0, coId := 0, fd := 0, curFd := 0, curFrame := none, curFrameData :=
    none, selfSvrType := 0
    selfInstId := 0, selfSvrZone := 0, state := .idle, timerId := 0, reqRandom := 0, mysqlRsp :=
    none, redisRsp := none
    oriFrame := {} }

/-- `new TransactionType(_cmd)` -/
def new (type : UInt32) (twoWay : Bool) : Transaction :=
  construct
    { type, twoWay, cmd := type, state := .idle, timerId := 0, transId := 0, userid := 0, coId := 0, fd := 0, curFd := 0
      selfSvrType := 0, selfInstId := 0, selfSvrZone := 0, reqRandom := 0, curFrame := none, oriFrame := {}
      curFrameData := none, mysqlRsp := none, redisRsp := none }

end Transaction

/-- The bucket's recycled objects, the last one first. -/
structure TransactionBucket where
  transVec : List Nat
  twoWay : Bool

/-- What a `Wait` waits for. The response to a query is named by the query. -/
inductive WaitKind where
  /-- `Wait` called by the handler itself -/
  | plain
  /-- the answer that `SendMsgBy…` parses -/
  | msg
  | mysql (q fields : Nat)
  | redis (q : Nat)
  deriving DecidableEq

/-- A call of a `MysqlCallBack`: the response it gets the rows of, and how many are to come. -/
structure Call where
  rsp : Nat
  rows : Nat
  deriving DecidableEq

inductive Pc where
  /-- in `InCoroutine`, before `ParseMsg` -/
  | start
  /-- in `OnRequest`, and in the callbacks it is in -/
  | code (calls : List Call)
  /-- in `Wait`, at its `yield` -/
  | wait (kind : WaitKind) (calls : List Call)
  deriving DecidableEq

/-- A handler and where it stands. -/
structure Task where
  trans : Nat
  pc : Pc
  deriving DecidableEq

structure MysqlRsp where
  transId : UInt32
  errCode : Int
  numFields : Nat
  rows : Nat
  deriving DecidableEq

structure RedisRsp where
  transId : UInt32
  errCode : Int
  deriving DecidableEq

/-- What `ApplicationBase::Run` is dispatching; a response is deleted when its dispatch is over. -/
inductive Loop where
  | idle
  | frame (m : Nat)
  | mysql (q : Nat) (rsp : MysqlRsp)
  | redis (q : Nat) (rsp : RedisRsp)
  deriving DecidableEq

structure App where
  maxConcurrentTrans : Int
  timerPool : TimerPool UInt32
  transIdGenerator : UInt32
  activeTransMap : AList fun _ : UInt32 => Nat
  transBucketMap : UInt32 → Option TransactionBucket
  trans : Nat → Transaction
  transTop : Nat
  schedule : Schedule Task
  serverType : UInt32
  instanceId : UInt32
  serverZone : UInt32
  router : RouterMgr
  loop : Loop
  /-- the messages that are not back in their pool -/
  live : List (Nat × AppHeadFrame)
  msgTop : Nat
  /-- the requests that the worker threads have, with their transaction ids -/
  mysqlReqs : List (Nat × UInt32)
  redisReqs : List (Nat × UInt32)
  reqTop : Nat

namespace App

@[simps] def setTrans (a : App) (p : Nat) (t : Transaction) : App := { a with trans := Function.update a.trans p t }

@[simps] def setSchedule (a : App) (schedule : Schedule Task) : App := { a with schedule := schedule }

@[simps] def setPool (a : App) (timerPool : TimerPool UInt32) : App := { a with timerPool := timerPool }

@[simps] def setLoop (a : App) (loop : Loop) : App := { a with loop := loop }

/-! ## `TransactionMgrImpl` -/

@[simps] def generatorTransId (a : App) : App := { a with transIdGenerator := a.transIdGenerator + 1 }

def getTransaction (a : App) (transId : UInt32) : Option Nat := a.activeTransMap.lookup transId

/-- `_active_trans_map.insert`, which keeps an entry that is there -/
def insertActive (a : App) (transId : UInt32) (p : Nat) : App :=
  if transId ∈ a.activeTransMap then a else { a with activeTransMap := a.activeTransMap.insert transId p }

@[simps] def eraseActive (a : App) (transId : UInt32) : App :=
  { a with activeTransMap := a.activeTransMap.erase transId }

@[simps] def setBucket (a : App) (cmd : UInt32) (b : TransactionBucket) : App :=
  { a with transBucketMap := Function.update a.transBucketMap cmd (some b) }

@[simps] def newTrans (a : App) (t : Transaction) : App :=
  { a with transTop := a.transTop + 1, trans := Function.update a.trans a.transTop t }

/-- `TransactionBucketImpl::CreateTransaction` of the bucket of `cmd` -/
def bucketCreate (a : App) (cmd : UInt32) (b : TransactionBucket) : Nat × App :=
  match b.transVec with
  | [] => (a.transTop, a.newTrans (.new cmd b.twoWay))
  | p :: ps => (p, (a.setTrans p (a.trans p).construct).setBucket cmd { b with transVec := ps })

def createTransaction (a : App) (cmd : UInt32) : Option (Nat × App) :=
  if a.maxConcurrentTrans < a.activeTransMap.entries.length then none
  else (a.transBucketMap cmd).map (a.bucketCreate cmd)

def recyleTransaction (a : App) (p : Nat) : App :=
  match a.transBucketMap (a.trans p).cmd with
  | some b => a.setBucket (a.trans p).cmd { b with transVec := p :: b.transVec }
  | none => a

/-- `CoroutineEnter` up to `InCoroutine` -/
def coroutineEnter (a : App) (p : Nat) : App :=
  (a.setTrans p { a.trans p with coId := a.schedule.curid }).insertActive (a.trans p).transId p

/-- `CoroutineEnter` after `InCoroutine`, and the end of its coroutine's task -/
def coroutineExit (a : App) (p : Nat) : App :=
  ((a.eraseActive (a.trans p).transId).recyleTransaction p).setSchedule a.schedule.taskEnd

/-! ## `Transaction` -/

def cancelTimer (a : App) (p : Nat) : Option App :=
  if (a.trans p).timerId = 0 then some a
  else do
    let r ← (a.timerPool.cancelTimer (a.trans p).timerId).toOption
    some ((a.setPool r.1).setTrans p { a.trans p with timerId := 0 })

/-- `SetTimer`, which takes the reading `now` of the clock. The id of the timer is not stored. -/
def setTimer (a : App) (p : Nat) (now interval : Int) : Option App := do
  let a ← a.cancelTimer p
  let r ← (a.timerPool.addTimer now interval (a.trans p).transId).toOption
  some (a.setPool r.1)

/-- `OnIdle`: from inside a coroutine `doTask` does nothing. -/
def onIdle (a : App) (p : Nat) : App :=
  let a := a.generatorTransId.setTrans p { a.trans p with transId := a.transIdGenerator }
  if a.schedule.curid = mainCoroutineId then (a.setSchedule (a.schedule.doTask ⟨p, .start⟩)).coroutineEnter p
  else a

def resume (a : App) (p : Nat) : App := a.setSchedule (a.schedule.resumeTask (a.trans p).coId)

def onActive (a : App) (p : Nat) : App := if (a.trans p).coId = 0 then a else a.resume p

def onTimeOut (a : App) (p : Nat) : App :=
  let a := a.setTrans p { a.trans p with timerId := 0 }
  if (a.trans p).coId = 0 then a else (a.setTrans p { a.trans p with reqRandom := 0 }).resume p

def onState (a : App) (p : Nat) : Option App := do
  let a ← a.cancelTimer p
  match (a.trans p).state with
  | .idle => some (a.onIdle p)
  | .active => some (a.onActive p)
  | .timeout => some (a.onTimeOut p)

/-- The frame is not the one that the transaction waits for. -/
def rejects (t : Transaction) (frame : AppHeadFrame) : Bool :=
  decide (t.reqRandom ≠ 0) && decide (t.reqRandom ≠ frame.reqRandom)

/-- What `Process` writes into the transaction before `OnState`. -/
def received (a : App) (t : Transaction) (fd : Int) (frame : AppHeadFrame) (m : Nat) : Transaction :=
  let t := match t.curFrameData with
    | none =>
      { t with
        userid := frame.userid, cmd := frame.cmd, fd := fd, selfSvrType := a.serverType, selfInstId := a.instanceId
        selfSvrZone := a.serverZone, oriFrame := frame }
    | some _ => { t with state := .active }
  { t with curFrameData := some m, curFrame := some m, curFd := fd }

/-- `Process` and what it returns. -/
def process (a : App) (p : Nat) (fd : Int) (frame : AppHeadFrame) (m : Nat) : Option (App × Int) :=
  if rejects (a.trans p) frame then some (a, -1)
  else ((a.setTrans p (a.received (a.trans p) fd frame m)).onState p).map fun a => (a, 0)

def processMysqlRsp (a : App) (p q : Nat) : Option App :=
  (a.setTrans p { a.trans p with mysqlRsp := some q, state := .active }).onState p

def processRedisRsp (a : App) (p q : Nat) : Option App :=
  (a.setTrans p { a.trans p with redisRsp := some q, state := .active }).onState p

/-! ## The entries of the manager -/

/-- The transaction that a frame is for: a running one, or a new one. -/
def frameTarget (a : App) (frame : AppHeadFrame) : Option (Nat × App) :=
  if 0 < frame.dstTransId then (a.getTransaction frame.dstTransId).map fun p => (p, a)
  else a.createTransaction frame.cmd

/-- `ProcessFrame`, and the transaction that took the frame. -/
def processFrame (a : App) (fd : Int) (frame : AppHeadFrame) (m : Nat) : Option (App × Option Nat) :=
  match a.frameTarget frame with
  | none => some (a, none)
  | some r => (r.2.process r.1 fd frame m).map fun ret => (ret.1, if ret.2 = 0 then some r.1 else none)

def timerCallback (a : App) (transId : UInt32) : Option App :=
  match a.getTransaction transId with
  | none => some a
  | some p => (a.setTrans p { a.trans p with state := .timeout }).onState p

/-- `TransactionMgrImpl::ProcessMysqlRsp` of the response to `q` -/
def mgrMysqlRsp (a : App) (q : Nat) (transId : UInt32) : Option App :=
  match a.getTransaction transId with
  | none => some a
  | some p => a.processMysqlRsp p q

def mgrRedisRsp (a : App) (q : Nat) (transId : UInt32) : Option App :=
  match a.getTransaction transId with
  | none => some a
  | some p => a.processRedisRsp p q

/-! ## What a handler calls -/

/-- The running handler goes on at `pc`. -/
def goto (a : App) (p : Nat) (pc : Pc) : App := a.setSchedule (a.schedule.goto ⟨p, pc⟩)

/-- `Wait` up to its `yield`. It throws on the main coroutine. -/
def wait (a : App) (p : Nat) (now interval : Int) (pc : Pc) : Option App :=
  if (a.trans p).coId = 0 then none
  else do
    let a ← a.setTimer p now interval
    some (a.setSchedule (a.schedule.yield ⟨p, pc⟩))

def waitReturn (t : Transaction) : WaitReturn :=
  match t.state with
  | .active => .active
  | _ => .timeout

/-- `set_req_random` of a number that `rand(10000, 100000)` gives -/
def setReqRandom (a : App) (p : Nat) (r : UInt32) : App := a.setTrans p { a.trans p with reqRandom := r }

/-- The message of `SendMsgByServerType` and, with an instance, of `SendMsgByServerId`. -/
def request (t : Transaction) (cmd svrType instId len : UInt32) : Msg :=
  { cmd, userid := t.userid, isBroadcast := false, dstZone := 0, dstSvrType := svrType, dstInstId := instId
    srcTransId := t.transId, dstTransId := 0, reqRandom := t.reqRandom, len }

/-- The message that `TwoWayTransaction::InCoroutine` answers with, `cur` being what it reads as its current frame. -/
def respond (t : Transaction) (cur : AppHeadFrame) (len : UInt32) : Msg :=
  { cmd := t.cmd + 1, userid := t.userid, isBroadcast := false, dstZone := t.oriFrame.srcZone
    dstSvrType := t.oriFrame.srcSvrType, dstInstId := t.oriFrame.srcInstId, srcTransId := t.transId
    dstTransId := t.oriFrame.srcTransId, reqRandom := cur.reqRandom, len }

/-- `AsyncMysqlMgr::AddRequest` of a request that is accepted -/
@[simps] def addMysqlReq (a : App) (transId : UInt32) : App :=
  { a with mysqlReqs := (a.reqTop, transId) :: a.mysqlReqs, reqTop := a.reqTop + 1 }

@[simps] def addRedisReq (a : App) (transId : UInt32) : App :=
  { a with redisReqs := (a.reqTop, transId) :: a.redisReqs, reqTop := a.reqTop + 1 }

/-- `MysqlQuery` up to its `Wait`. -/
def mysqlQuery (a : App) (p fields : Nat) (now : Int) (calls : List Call) : Option App :=
  (a.addMysqlReq (a.trans p).transId).wait p now 120000 (.wait (.mysql a.reqTop fields) calls)

def redisExecute (a : App) (p : Nat) (now : Int) (calls : List Call) : Option App :=
  (a.addRedisReq (a.trans p).transId).wait p now 120000 (.wait (.redis a.reqTop) calls)

/-- The end of `MysqlQuery`: the pointer is cleared and the result freed. -/
def clearMysqlRsp (a : App) (p : Nat) : App := a.setTrans p { a.trans p with mysqlRsp := none }

/-- `MysqlQuery` after `Wait`, when `_mysql_rsp` points to the response `q`, up to the first row. -/
def mysqlQueryRsp (a : App) (p fields q : Nat) (rsp : MysqlRsp) (calls : List Call) : App :=
  if rsp.errCode ≠ 0 ∨ fields ≠ rsp.numFields then (a.clearMysqlRsp p).goto p (.code calls)
  else match rsp.rows with
    | 0 => (a.clearMysqlRsp p).goto p (.code calls)
    | n + 1 => a.goto p (.code (⟨q, n⟩ :: calls))

/-- `MysqlQuery` after a row. -/
def mysqlQueryRow (a : App) (p : Nat) (call : Call) (calls : List Call) : App :=
  match call.rows with
  | 0 => (a.clearMysqlRsp p).goto p (.code calls)
  | n + 1 => a.goto p (.code (⟨call.rsp, n⟩ :: calls))

/-- `RedisExecute` after `Wait`, when `_redis_rsp` is set; a callback is more code of the handler. -/
def redisExecuteRsp (a : App) (p : Nat) (rsp : RedisRsp) (calls : List Call) : App :=
  if rsp.errCode ≠ 0 then a.goto p (.code calls)
  else (a.setTrans p { a.trans p with redisRsp := none }).goto p (.code calls)

end App

end GlobalServer
