import GlobalServer.Lib.Runs
import GlobalServer.Lib.Decimal
import Mathlib.Logic.Function.Basic

/-!
# The asynchronous database managers

`commonlib/async/async_mysql_mgr.cpp` and `async_redis_mgr.cpp`: the main
thread hands requests to worker threads by order id and picks their responses
up; each worker has a queue, a mutex and a condition. The two managers are one
program over two kinds of requests. A state says where each thread is; an event
is a call, the next step of a thread, or a wakeup that nobody asked for.
-/

namespace GlobalServer.Async

open Bytes Decimal

/-! ## What a worker does with a request -/

/-- `StringUtil::Split` into strings: an empty last piece is dropped, and of each piece `>>` takes the first word. -/
def split (source : String) (separator : Char) : List String :=
  let pieces := source.toList.splitOn separator
  let pieces := if pieces.getLast? = some [] then pieces.dropLast else pieces
  let space : Char → Bool := fun c => c = ' ' ∨ ('\t' ≤ c ∧ c ≤ '\r')
  pieces.map fun sub => String.ofList ((sub.dropWhile space).takeWhile fun c => !space c)

/-- `(unsigned short) atoi(..)` -/
def ushort (s : String) : Nat := ((atoi s.toUTF8.toList) % 2 ^ 16).toNat

inductive MysqlReq.Type
  | E_QUERY
  | E_EXECUTE
  deriving DecidableEq, Repr

structure MysqlReq where
  type : MysqlReq.Type
  transId : Nat
  url : String
  sql : String
  deriving DecidableEq, Repr

/-- A stored result: its rows. -/
structure MysqlRes where
  rows : List (List String)
  deriving DecidableEq, Repr

structure MysqlRsp where
  transId : Nat
  errCode : Int := 0
  codeWhat : String := ""
  affectedRows : Int := 0
  mysqlRes : Option MysqlRes := none
  isDupEntry : Bool := false
  deriving DecidableEq, Repr

/-- What the connection says to the statement of one request. -/
structure SqlConnection where
  execute : Int
  affectedRows : Int
  storeResult : Option MysqlRes
  errorMsg : String
  isDupEntry : Bool
  deriving DecidableEq, Repr

/-- `MysqlPool` as a worker finds it: a connection for an address, or the message. -/
structure MysqlPool where
  getConnection : (host user passwd db : String) → (port : Nat) → Option SqlConnection
  errorMsg : String

/-- `AsyncMysqlMgrImpl::proccss`; `none` where `mysql_num_rows` gets a null result. -/
def mysqlProccss (pool : MysqlPool) (req : MysqlReq) : Option MysqlRsp :=
  let rsp : MysqlRsp := { transId := req.transId }
  match split req.url ':' with
  | [host, port, user, passwd, db] =>
    match pool.getConnection host user passwd db (ushort port) with
    | none => some { rsp with errCode := -1, codeWhat := pool.errorMsg }
    | some ptr =>
      let rsp := { rsp with errCode := ptr.execute }
      let failed := { rsp with codeWhat := ptr.errorMsg, isDupEntry := ptr.isDupEntry }
      match req.type with
      | .E_QUERY =>
        if ptr.execute ≠ 0 then some failed
        else ptr.storeResult.map fun res => { rsp with mysqlRes := some res, affectedRows := i32 res.rows.length }
      | .E_EXECUTE =>
        if ptr.execute ≠ 0 then some { failed with affectedRows := ptr.affectedRows }
        else some { rsp with affectedRows := ptr.affectedRows }
  | _ => some { rsp with errCode := -1, codeWhat := "illegal url" }

structure RedisReq where
  transId : Nat
  url : String
  cmd : List String
  deriving DecidableEq, Repr

structure RedisRsp (Reply : Type) where
  transId : Nat
  errCode : Int := 0
  codeWhat : String := ""
  reply : Option Reply := none

/-- A command sent through `RedisPool`: its reply, or the code and the text of the `RedisException`. -/
abbrev RedisPool (Reply : Type) :=
  (host : String) → (port db : Nat) → (user passwd : String) → (cmd : List String) → Except (Int × String) Reply

/-- `AsyncRedisMgrImpl::proccss` -/
def redisProccss {Reply : Type} (pool : RedisPool Reply) (req : RedisReq) : Option (RedisRsp Reply) :=
  let rsp : RedisRsp Reply := { transId := req.transId }
  match split req.url ':' with
  | [host, port, user, passwd, db] =>
    match pool host (ushort port) (ushort db) user passwd req.cmd with
    | .ok reply => some { rsp with reply := some reply }
    | .error (code, what) => some { rsp with errCode := code, codeWhat := what }
  | _ => some { rsp with errCode := -1, codeWhat := "illegal url" }

/-! ## The threads -/

/-- A request with the order id it came with; `no` counts the calls and stands for the pointer. -/
structure Job (Req : Type) where
  no : Nat
  orderid : Nat
  req : Req
  deriving DecidableEq

structure Answer (Req Rsp : Type) where
  job : Job Req
  rsp : Rsp

inductive Thread
  | main
  | worker (idx : Nat)
  deriving DecidableEq

/-- Where the main thread is: in AddRequest for the worker `idx`, or in Pick. -/
inductive MainAt (Req Rsp : Type)
  | idle
  | lock (idx : Nat) (req : Job Req)
  | check (idx : Nat) (req : Job Req)
  | asleep (idx : Nat) (req : Job Req)
  | woken (idx : Nat) (req : Job Req)
  | push (idx : Nat) (req : Job Req)
  | unlock (idx : Nat) (req : Job Req)
  | notify (idx : Nat) (req : Job Req)
  | pickLock
  | pickPop
  | pickUnlock (rsp : Option (Answer Req Rsp))
  /-- An index outside of the vector: undefined behaviour. -/
  | fault

/-- Where a worker is in `run`. -/
inductive RunAt (Req Rsp : Type)
  | lock
  | check
  | asleep
  | woken
  | pop
  | unlock (req : Option (Job Req))
  | notify (req : Option (Job Req))
  | proccss (req : Job Req)
  | rspLock (rsp : Answer Req Rsp)
  | rspPush (rsp : Answer Req Rsp)
  | rspUnlock
  /-- A null pointer was read. -/
  | fault

/-- A worker: MysqlWork or RedisWork, and its thread. -/
structure Work (Req Rsp : Type) where
  mutex : Option Thread
  queue : List (Job Req)
  run : RunAt Req Rsp

structure AsyncMgr (Req Rsp : Type) where
  queueMaxSize : Nat
  workCnt : Nat
  /-- `_work_queue`, at the indices below `workCnt`. -/
  work : Nat → Work Req Rsp
  mutex : Option Thread
  rspQueue : List (Answer Req Rsp)
  main : MainAt Req Rsp
  /-- How often AddRequest has taken a request. -/
  calls : Nat
  /-- The requests with which AddRequest has returned true. -/
  accepted : List (Job Req)
  /-- The results of `proccss`, in order. -/
  executed : List (Answer Req Rsp)
  /-- All that has been put into the response queue. -/
  answered : List (Answer Req Rsp)
  /-- What Pick has returned. -/
  picked : List (Answer Req Rsp)

/-- A manager after `Init`. -/
def init (Req Rsp : Type) (workCnt queueMaxSize : Nat) : AsyncMgr Req Rsp where
  queueMaxSize := queueMaxSize
  workCnt := workCnt
  work := fun _ => { mutex := none, queue := [], run := .lock }
  mutex := none
  rspQueue := []
  main := .idle
  calls := 0
  accepted := []
  executed := []
  answered := []
  picked := []

variable {Req Rsp Db : Type}

/-- The main thread after a signal to the condition of worker `idx`. -/
def MainAt.signalled (idx : Nat) : MainAt Req Rsp → MainAt Req Rsp
  | .asleep i req => if i = idx then .woken i req else .asleep i req
  | m => m

/-- A worker after a signal to its condition. -/
def RunAt.signalled : RunAt Req Rsp → RunAt Req Rsp
  | .asleep => .woken
  | r => r

namespace AsyncMgr

def setWork (s : AsyncMgr Req Rsp) (idx : Nat) (w : Work Req Rsp) : AsyncMgr Req Rsp :=
  { s with work := Function.update s.work idx w }

/-- AddRequest is called: without workers it deletes the request and returns false. An index that an `int` does not
hold comes out negative. -/
def addRequest (s : AsyncMgr Req Rsp) (orderid : Nat) (req : Req) : AsyncMgr Req Rsp :=
  if s.workCnt = 0 then s
  else
    let idx := orderid % s.workCnt
    if 0x80000000 ≤ idx then { s with main := .fault }
    else { s with main := .lock idx { no := s.calls, orderid, req }, calls := s.calls + 1 }

/-- The next step of the main thread in AddRequest or Pick. -/
def mainStep (s : AsyncMgr Req Rsp) : Option (AsyncMgr Req Rsp) :=
  match s.main with
  | .idle => none
  | .lock idx req =>
    let w := s.work idx
    if w.mutex = none then some { s.setWork idx { w with mutex := some .main } with main := .check idx req } else none
  | .check idx req =>
    let w := s.work idx
    if s.queueMaxSize ≤ w.queue.length then
      some { s.setWork idx { w with mutex := none } with main := .asleep idx req }
    else some { s with main := .push idx req }
  | .asleep _ _ => none
  | .woken idx req =>
    let w := s.work idx
    if w.mutex = none then some { s.setWork idx { w with mutex := some .main } with main := .push idx req } else none
  | .push idx req =>
    let w := s.work idx
    some { s.setWork idx { w with queue := w.queue ++ [req] } with main := .unlock idx req }
  | .unlock idx req => some { s.setWork idx { s.work idx with mutex := none } with main := .notify idx req }
  | .notify idx req =>
    -- the worker is the only other thread that can sleep here
    let w := s.work idx
    some { s.setWork idx { w with run := w.run.signalled } with main := .idle, accepted := s.accepted ++ [req] }
  | .pickLock => if s.mutex = none then some { s with mutex := some .main, main := .pickPop } else none
  | .pickPop => some { s with rspQueue := s.rspQueue.tail, main := .pickUnlock s.rspQueue.head? }
  | .pickUnlock rsp => some { s with mutex := none, main := .idle, picked := s.picked ++ rsp.toList }
  | .fault => none

/-- The next step of worker `idx`; `db` is what the database does if it is the step that asks it. -/
def runStep (proccss : Db → Req → Option Rsp) (s : AsyncMgr Req Rsp) (idx : Nat) (db : Db) : Option (AsyncMgr Req Rsp) :=
  let w := s.work idx
  match w.run with
  | .lock => if w.mutex = none then some (s.setWork idx { w with mutex := some (.worker idx), run := .check }) else none
  | .check =>
    if w.queue = [] then some (s.setWork idx { w with mutex := none, run := .asleep })
    else some (s.setWork idx { w with run := .pop })
  | .asleep => none
  | .woken => if w.mutex = none then some (s.setWork idx { w with mutex := some (.worker idx), run := .pop }) else none
  | .pop => some (s.setWork idx { w with queue := w.queue.tail, run := .unlock w.queue.head? })
  | .unlock req => some (s.setWork idx { w with mutex := none, run := .notify req })
  | .notify req =>
    -- the main thread is the only other thread that can sleep here
    some { s.setWork idx { w with run := req.elim .lock .proccss } with main := s.main.signalled idx }
  | .proccss req =>
    match proccss db req.req with
    | none => some (s.setWork idx { w with run := .fault })
    | some rsp =>
      let a : Answer Req Rsp := { job := req, rsp }
      some { s.setWork idx { w with run := .rspLock a } with executed := s.executed ++ [a] }
  | .rspLock rsp =>
    if s.mutex = none then some { s.setWork idx { w with run := .rspPush rsp } with mutex := some (.worker idx) } else none
  | .rspPush rsp =>
    some { s.setWork idx { w with run := .rspUnlock } with
      rspQueue := s.rspQueue ++ [rsp], answered := s.answered ++ [rsp] }
  | .rspUnlock => some { s.setWork idx { w with run := .lock } with mutex := none }
  | .fault => none

end AsyncMgr

inductive Event (Req Db : Type)
  | addRequest (orderid : Nat) (req : Req)
  | pick
  /-- The main thread goes on in its call. -/
  | main
  | run (idx : Nat) (db : Db)
  /-- A spurious wakeup. -/
  | wakeMain
  | wakeRun (idx : Nat)

def step (proccss : Db → Req → Option Rsp) (s : AsyncMgr Req Rsp) : Event Req Db → Option (AsyncMgr Req Rsp)
  | .addRequest orderid req => match s.main with
    | .idle => some (s.addRequest orderid req)
    | _ => none
  | .pick => match s.main with
    | .idle => some { s with main := .pickLock }
    | _ => none
  | .main => s.mainStep
  | .run idx db => if idx < s.workCnt then s.runStep proccss idx db else none
  | .wakeMain => match s.main with
    | .asleep idx req => some { s with main := .woken idx req }
    | _ => none
  | .wakeRun idx => match (s.work idx).run with
    | .asleep => some (s.setWork idx { s.work idx with run := .woken })
    | _ => none

/-- `AsyncMysqlMgrImpl` -/
def mysqlStep : AsyncMgr MysqlReq MysqlRsp → Event MysqlReq MysqlPool → Option (AsyncMgr MysqlReq MysqlRsp) :=
  step mysqlProccss

/-- `AsyncRedisMgrImpl` -/
def redisStep {Reply : Type} : AsyncMgr RedisReq (RedisRsp Reply) → Event RedisReq (RedisPool Reply) →
    Option (AsyncMgr RedisReq (RedisRsp Reply)) :=
  step redisProccss

end GlobalServer.Async
