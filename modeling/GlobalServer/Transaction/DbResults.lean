import GlobalServer.Lib.Ledger
import GlobalServer.Transaction.Responses

/-!
# Who releases the results of the databases

A worker stores a `MYSQL_RES` or a `redisReply` in a response whose query was
no error. `MysqlQuery` has it as `result` while its callback gets the rows, and
releases what it reads in the response once more after the last; `RedisExecute`
gives it to a `RedisReplyParser`, which releases it when the callback is over.
The loop deletes a response and releases nothing.

What is done with the results is logged beside the application, the storing
when the loop picks the response. A result is named by its query, and what is
read as one in a deleted response can be anything.
-/

namespace GlobalServer

open Ledger (Op InOrder Holds)

/-- The result of the query `q`. -/
inductive DbResult where
  | mysql (q : Nat)
  | redis (q : Nat)
  deriving DecidableEq

/-- `mysql_res`: the result of an `E_QUERY` is stored when there is no error. -/
def MysqlRsp.mysqlRes (rsp : MysqlRsp) (q : Nat) : Option DbResult := if rsp.errCode = 0 then some (.mysql q) else none

def RedisRsp.reply (rsp : RedisRsp) (q : Nat) : Option DbResult := if rsp.errCode = 0 then some (.redis q) else none

/-- The application, and what calls have of the results: pairs of a transaction and a result, the latest call first. -/
structure DbApp where
  app : App
  /-- `result` of the calls of `MysqlQuery` that get rows -/
  results : List (Nat × DbResult)
  /-- what the `RedisReplyParser`s have -/
  parsers : List (Nat × DbResult)
  log : List (Op DbResult)

inductive DbEvent where
  /-- an event of the application, which reads `res` as `mysql_res` or `reply` -/
  | app (e : Event) (res : Option DbResult)
  /-- a callback reads a row, or its parser's reply -/
  | read (p : Nat) (r : DbResult)
  /-- a `RedisCallBack` is over, and its parser goes -/
  | parsed (p : Nat) (r : DbResult)

/-- The response that is read in the event. -/
def Event.seen : Event → Seen
  | .co _ (.woke _ seen) => seen
  | .co _ (.row seen) => seen
  | _ => .nothing

/-- `OnRequest` returns, or is not called. -/
def Act.ends : Act → Bool
  | .parseMsg _ ok => !ok
  | .onRequest _ _ _ _ => true
  | _ => false

namespace App

/-- The result in the response is read as it is while the response is there. -/
def showsRes (a : App) : Seen → Option DbResult → Bool
  | .mysql q _, res => match a.loop with
    | .mysql q' rsp => decide (q = q' → res = rsp.mysqlRes q)
    | _ => true
  | .redis q _, res => match a.loop with
    | .redis q' rsp => decide (q = q' → res = rsp.reply q)
    | _ => true
  | _, res => res.isNone

/-- The handler of `p` runs, and is not in `Wait`. -/
def inCode (a : App) (p : Nat) : Bool := match a.running with
  | some ⟨p', .code _⟩ => decide (p' = p)
  | _ => false

/-- The result in the response in dispatch, while the call it goes to is about to return from `Wait`. -/
def unread (a : App) : List DbResult := match a.loop, a.running with
  | .mysql q rsp, some ⟨p, .wait (.mysql _ _) _⟩ => if (a.trans p).mysqlRsp = some q then (rsp.mysqlRes q).toList else []
  | .redis q rsp, some ⟨p, .wait (.redis _) _⟩ => if (a.trans p).redisRsp = some q then (rsp.reply q).toList else []
  | _, _ => []

end App

namespace DbApp

def logs (s : DbApp) (ops : List (Op DbResult)) : DbApp := { s with log := s.log ++ ops }

/-- `MysqlQuery` after `Wait`, when it has read the response. With an error `mysql_free_result` gets what is read as
`mysql_res`; otherwise the fields and the first row are read, which a null pointer does not survive. -/
def mysqlWoke (s : DbApp) (p : Nat) (rsp : MysqlRsp) (res : Option DbResult) : Option DbApp :=
  if rsp.errCode ≠ 0 then some (s.logs (res.toList.map .free))
  else res.map fun r =>
    if (s.app.trans p).mysqlRsp = none then s.logs [.read r, .free r]
    else { s with results := (p, r) :: s.results }.logs [.read r]

/-- `RedisExecute` after `Wait`: its parser gets the reply, and goes at once if there is an error. -/
def redisWoke (s : DbApp) (p : Nat) (rsp : RedisRsp) (res : Option DbResult) : DbApp :=
  if rsp.errCode ≠ 0 then s.logs (res.toList.map .free)
  else { s with parsers := res.toList.map (fun r => (p, r)) ++ s.parsers }

/-- `mysql_fetch_row`; after the last row the response is read again. -/
def mysqlRow (s : DbApp) (p : Nat) (seen : Seen) (res : Option DbResult) : Option DbApp :=
  (s.results.lookup p).map fun r => match seen with
    | .mysql _ _ => { s with results := s.results.erase (p, r) }.logs (.read r :: res.toList.map .free)
    | _ => s.logs [.read r]

/-- What the event, after which the application is that of `s`, does with the results. A handler ends when its
callbacks are over. -/
def after (s : DbApp) (e : Event) (res : Option DbResult) : Option DbApp := match e with
  | .mysqlRsp q rsp _ => some (s.logs ((rsp.mysqlRes q).toList.map .store))
  | .redisRsp q rsp _ => some (s.logs ((rsp.reply q).toList.map .store))
  | .co p (.woke _ (.mysql _ rsp)) => s.mysqlWoke p rsp res
  | .co p (.woke _ (.redis _ rsp)) => some (s.redisWoke p rsp res)
  | .co p (.row seen) => s.mysqlRow p seen res
  | .co p act => if act.ends = true ∧ s.parsers.lookup p ≠ none then none else some s
  | _ => some s

def step (s : DbApp) : DbEvent → Option DbApp
  | .app e res => if s.app.showsRes e.seen res then (s.app.step e).bind fun a => { s with app := a }.after e res else none
  | .read p r => if s.app.inCode p ∧ ((p, r) ∈ s.results ∨ (p, r) ∈ s.parsers) then some (s.logs [.read r]) else none
  | .parsed p r =>
    if s.app.inCode p ∧ (p, r) ∈ s.parsers then some ({ s with parsers := s.parsers.erase (p, r) }.logs [.free r])
    else none

def init (c : App.Config) : DbApp := { app := .init c, results := [], parsers := [], log := [] }

/-- The runs whose steps meet `C`. -/
abbrev Run (C : DbApp → DbEvent → Prop) (c : App.Config) (t : List DbEvent) (s : DbApp) : Prop :=
  Runs.Run (fun s e s' => s.step e = some s') (fun _ => C) (init c) t s

/-- Somebody has the result who will release it: the call that its response has been handed to, the running call of
`MysqlQuery` that gets its rows, or the parser of a call of `RedisExecute`. -/
def Has (s : DbApp) (r : DbResult) : Prop :=
  r ∈ s.app.unread ∨ (∃ p, s.app.inCode p = true ∧ (p, r) ∈ s.results) ∨ ∃ p, s.app.Running p ∧ (p, r) ∈ s.parsers

/-- Results are released once and not read after it, and somebody has each that is not released. -/
structure Released (s : DbApp) : Prop where
  inOrder : InOrder s.log
  kept : ∀ r, .store r ∈ s.log → .free r ∈ s.log ∨ s.Has r

/-- A response that has a result comes while its transaction is in a `Wait` of `MysqlQuery` or `RedisExecute`; the
response that a call reads is in dispatch; and no callback of `MysqlQuery` waits. -/
structure ReleaseOk (s : DbApp) (e : DbEvent) : Prop where
  mysql : ∀ q rsp target res, e = .app (.mysqlRsp q rsp target) res → rsp.errCode = 0 → ∃ id p q' fields calls,
    target = some p ∧ s.app.schedule.task id = some ⟨p, .wait (.mysql q' fields) calls⟩
  redis : ∀ q rsp target res, e = .app (.redisRsp q rsp target) res → rsp.errCode = 0 → ∃ id p q' calls,
    target = some p ∧ s.app.schedule.task id = some ⟨p, .wait (.redis q') calls⟩
  readsMysql : ∀ p ret q rsp res, e = .app (.co p (.woke ret (.mysql q rsp))) res → ∃ rsp', s.app.loop = .mysql q rsp'
  readsRedis : ∀ p ret q rsp res, e = .app (.co p (.woke ret (.redis q rsp))) res → ∃ rsp', s.app.loop = .redis q rsp'
  callback : ∀ p act calls res, e = .app (.co p act) res → act.suspends = true →
    s.app.running = some ⟨p, .code calls⟩ → calls = []

end DbApp

end GlobalServer
