import GlobalServer.Transaction.Transaction

/-!
# The application's main loop

`ApplicationBase::Run` updates the timers, dispatches frames and hands over
database responses, one after another. Each may set a handler running, and a
handler runs until it waits or returns. A handler is any program over what
`Transaction` offers it: it may send, query, wait, read its current frame and
call `ProcessFrame`.

An event says what happened and what was read. What is read through a pointer
to a message that is back in its pool, or to a deleted response, can be
anything. When a message goes back is left open: at the earliest when its
dispatch is over.
-/

namespace GlobalServer

/-- What a handler reads through one of its pointers. -/
inductive Seen where
  | nothing
  | frame (m : Nat) (frame : AppHeadFrame)
  | mysql (q : Nat) (rsp : MysqlRsp)
  | redis (q : Nat) (rsp : RedisRsp)
  deriving DecidableEq

inductive Act where
  /-- `ParseMsg` of the request -/
  | parseMsg (seen : Seen) (ok : Bool)
  /-- the handler reads `cur_frame()` or parses its body -/
  | curFrame (seen : Seen)
  /-- `SendMsgBy…` without a response, or one that fails to send -/
  | sendMsg (cmd svrType instId len r : UInt32) (out : Option (Int × AppHeadFrame))
  /-- `SendMsgBy…` with a response, which waits for it -/
  | callMsg (cmd svrType instId len r : UInt32) (out : Int × AppHeadFrame) (now : Int)
  | wait (now interval : Int)
  | mysqlQuery (fields : Nat) (now : Int)
  | redisExecute (now : Int)
  /-- `TransactionMgr::ProcessFrame` of a frame of the handler's own -/
  | processFrame (fd : Int) (frame : AppHeadFrame) (target : Option Nat)
  /-- `Wait` returns -/
  | woke (ret : WaitReturn) (seen : Seen)
  /-- a `MysqlCallBack` returns -/
  | row (seen : Seen)
  /-- `OnRequest` returns, and what is sent for it -/
  | onRequest (ret : Int) (seen : Seen) (len : UInt32) (out : Option (Int × AppHeadFrame))

inductive Event where
  | update (now : Int)
  | timer (shown : TimerPool.Shown UInt32) (target : Option Nat)
  | dispatch (fd : Int) (frame : AppHeadFrame) (target : Option Nat)
  | mysqlRsp (q : Nat) (rsp : MysqlRsp) (target : Option Nat)
  | redisRsp (q : Nat) (rsp : RedisRsp) (target : Option Nat)
  /-- the dispatch of a frame or a response is over -/
  | dispatched
  /-- a message goes back to its pool -/
  | recycle (m : Nat)
  /-- the table of routers changes -/
  | routers (routerInfoVec : List Int)
  | co (p : Nat) (act : Act)

namespace App

/-- The main loop is between two events. -/
def idle (a : App) : Bool :=
  a.schedule.curco.isNone && decide (a.loop = .idle) && a.timerPool.updating.isNone

/-- What is there is read as it is. -/
def shows (a : App) : Seen → Bool
  | .nothing => true
  | .frame m frame => match a.live.lookup m with
    | some frame' => decide (frame = frame')
    | none => true
  | .mysql q rsp => match a.loop with
    | .mysql q' rsp' => decide (q = q' → rsp = rsp')
    | _ => true
  | .redis q rsp => match a.loop with
    | .redis q' rsp' => decide (q = q' → rsp = rsp')
    | _ => true

/-- The current frame of a transaction, as it is read. -/
def curFrame (a : App) (p : Nat) : Seen → Option AppHeadFrame
  | .frame m frame => if (a.trans p).curFrame = some m ∧ a.shows (.frame m frame) then some frame else none
  | _ => none

def mysqlRsp (a : App) (p : Nat) : Seen → Option (Nat × MysqlRsp)
  | .mysql q rsp => if (a.trans p).mysqlRsp = some q ∧ a.shows (.mysql q rsp) then some (q, rsp) else none
  | _ => none

def redisRsp (a : App) (p : Nat) : Seen → Option (Nat × RedisRsp)
  | .redis q rsp => if (a.trans p).redisRsp = some q ∧ a.shows (.redis q rsp) then some (q, rsp) else none
  | _ => none

/-- What `rand(10000, 100000)` may give. -/
def isRandom (r : UInt32) : Bool := decide (10000 ≤ r) && decide (r < 100000)

/-- A message taken from its pool. -/
@[simps] def takeMsg (a : App) (frame : AppHeadFrame) : App :=
  { a with live := (a.msgTop, frame) :: a.live, msgTop := a.msgTop + 1 }

@[simps] def dropMsg (a : App) (m : Nat) : App := { a with live := a.live.filter fun l => decide (l.1 ≠ m) }

@[simps] def setRouters (a : App) (routerInfoVec : List Int) : App :=
  { a with router := { a.router with routerInfoVec := routerInfoVec } }

/-- `AsyncMysqlMgr::Pick` of the response to `q` -/
@[simps] def pickMysqlRsp (a : App) (q : Nat) (rsp : MysqlRsp) : App :=
  { a with loop := .mysql q rsp, mysqlReqs := a.mysqlReqs.erase (q, rsp.transId) }

@[simps] def pickRedisRsp (a : App) (q : Nat) (rsp : RedisRsp) : App :=
  { a with loop := .redis q rsp, redisReqs := a.redisReqs.erase (q, rsp.transId) }

/-- The call returned `target` as the event says. -/
def reached (target : Option Nat) (r : App × Option Nat) : Option App := if r.2 = target then some r.1 else none

/-- `Wait` returns, and the call that it is in goes on. -/
def woke (a : App) (p : Nat) (kind : WaitKind) (calls : List Call) (ret : WaitReturn) (seen : Seen) : Option App :=
  let a := a.setTrans p { a.trans p with state := .idle }
  match kind with
  | .plain => if seen = .nothing then some (a.goto p (.code calls)) else none
  | .msg => match ret with
    | .timeout => if seen = .nothing then some (a.goto p (.code calls)) else none
    | .active => (a.curFrame p seen).map fun _ => a.goto p (.code calls)
  | .mysql _ fields => match (a.trans p).mysqlRsp with
    | none => if seen = .nothing then some (a.goto p (.code calls)) else none
    | some _ => (a.mysqlRsp p seen).map fun r => a.mysqlQueryRsp p fields r.1 r.2 calls
  | .redis _ => match (a.trans p).redisRsp with
    | none => if seen = .nothing then some (a.goto p (.code calls)) else none
    | some _ => (a.redisRsp p seen).map fun r => a.redisExecuteRsp p r.2 calls

/-- The last row's callback returns to where `MysqlQuery` reads the response once more. -/
def row (a : App) (p : Nat) (call : Call) (calls : List Call) (seen : Seen) : Option App :=
  match call.rows, seen with
  | 0, .mysql q rsp => if q = call.rsp ∧ a.shows (.mysql q rsp) then some (a.mysqlQueryRow p call calls) else none
  | _ + 1, .nothing => some (a.mysqlQueryRow p call calls)
  | _, _ => none

/-- `InCoroutine` after `OnRequest`: a `TwoWayTransaction` answers. -/
def onRequest (a : App) (p : Nat) (ret : Int) (seen : Seen) (len : UInt32) (out : Option (Int × AppHeadFrame)) :
    Option App :=
  if (a.trans p).twoWay ∧ ret = 0 then do
    let cur ← a.curFrame p seen
    if out = a.router.sendMsg (respond (a.trans p) cur len) then some (a.coroutineExit p) else none
  else if seen = .nothing ∧ out = none then some (a.coroutineExit p)
  else none

/-- A step of the handler that runs. -/
def act (a : App) (p : Nat) : Pc → Act → Option App
  | .start, .parseMsg seen ok =>
    (a.curFrame p seen).map fun _ => if ok then a.goto p (.code []) else a.coroutineExit p
  | .code _, .curFrame seen => (a.curFrame p seen).map fun _ => a
  | .code _, .sendMsg cmd svrType instId len r out =>
    let a := a.setReqRandom p r
    if isRandom r ∧ (out = none ∨ out = a.router.sendMsg (request (a.trans p) cmd svrType instId len)) then some a else none
  | .code calls, .callMsg cmd svrType instId len r out now =>
    let a := a.setReqRandom p r
    if isRandom r ∧ a.router.sendMsg (request (a.trans p) cmd svrType instId len) = some out then
      a.wait p now 5000 (.wait .msg calls)
    else none
  | .code calls, .wait now interval => a.wait p now interval (.wait .plain calls)
  | .code calls, .mysqlQuery fields now => a.mysqlQuery p fields now calls
  | .code calls, .redisExecute now => a.redisExecute p now calls
  | .code _, .processFrame fd frame target =>
    ((a.takeMsg frame).processFrame fd frame a.msgTop).bind (reached target)
  | .code (call :: calls), .row seen => a.row p call calls seen
  | .code [], .onRequest ret seen len out => a.onRequest p ret seen len out
  | .wait kind calls, .woke ret seen =>
    if waitReturn (a.trans p) = ret then a.woke p kind calls ret seen else none
  | _, _ => none

/-- The handler that runs. -/
def running (a : App) : Option Task := a.schedule.curco.bind a.schedule.task

/-- The transaction whose timer's callback is called. -/
def timerTarget (a : App) : TimerPool.Shown UInt32 → Option Nat
  | .callback _ transId => a.getTransaction transId
  | _ => none

def onShown (a : App) : TimerPool.Shown UInt32 → Option App
  | .callback _ transId => a.timerCallback transId
  | _ => some a

def step (a : App) : Event → Option App
  | .update now => if a.idle then some (a.setPool (a.timerPool.beginUpdate now)) else none
  | .timer shown target =>
    if a.schedule.curco.isNone ∧ target = a.timerTarget shown then do
      let u ← a.timerPool.updating
      let r ← (a.timerPool.updateNext u).toOption
      if r.2 = shown then (a.setPool r.1).onShown shown else none
    else none
  | .dispatch fd frame target =>
    if a.idle then (((a.setLoop (.frame a.msgTop)).takeMsg frame).processFrame fd frame a.msgTop).bind (reached target)
    else none
  | .mysqlRsp q rsp target =>
    if a.idle ∧ (q, rsp.transId) ∈ a.mysqlReqs ∧ target = a.getTransaction rsp.transId then
      (a.pickMysqlRsp q rsp).mgrMysqlRsp q rsp.transId
    else none
  | .redisRsp q rsp target =>
    if a.idle ∧ (q, rsp.transId) ∈ a.redisReqs ∧ target = a.getTransaction rsp.transId then
      (a.pickRedisRsp q rsp).mgrRedisRsp q rsp.transId
    else none
  | .dispatched => if a.schedule.curco.isNone ∧ a.loop ≠ .idle then some (a.setLoop .idle) else none
  | .recycle m => if a.loop ≠ .frame m then some (a.dropMsg m) else none
  | .routers routerInfoVec => some (a.setRouters routerInfoVec)
  | .co p act => match a.running with
    | some t => if t.trans = p then a.act p t.pc act else none
    | none => none

/-- The state after a list of events. -/
def replay (a : App) : List Event → Option App
  | [] => some a
  | e :: t => (a.step e).bind fun a' => replay a' t

/-- What an application is set up with: `buckets` are the registered commands and which of them answer. -/
structure Config where
  maxConcurrentTrans : Int
  buckets : UInt32 → Option Bool
  serverType : UInt32
  instanceId : UInt32
  serverZone : UInt32
  router : RouterMgr
  /-- the clock when the timer pool is made -/
  now : Int

/-- The application before its first event. -/
def init (c : Config) : App :=
  { maxConcurrentTrans := c.maxConcurrentTrans, timerPool := .new 1 c.now, transIdGenerator := 1, activeTransMap := ∅
    transBucketMap := fun cmd => (c.buckets cmd).map fun twoWay => { transVec := [], twoWay }
    trans := fun _ => .new 0 false, transTop := 0, schedule := .init
    serverType := c.serverType, instanceId := c.instanceId
    serverZone := c.serverZone, router := c.router, loop := .idle, live := [], msgTop := 0
    mysqlReqs := [], redisReqs := []
    reqTop := 0 }

end App

end GlobalServer
