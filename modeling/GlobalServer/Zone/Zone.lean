import GlobalServer.Lib.KeyTable
import GlobalServer.Router.Received
import GlobalServer.Transaction.Application

/-!
# The servers of a zone and the routers between them

Each server is an application with its transactions, each router the table of
its instances, and a message goes from a server over one of its connections to
a router, and from there over another to the server that it is for. A
connection keeps the order of what is sent over it. It may lose messages, as
when a list of messages is full, and after its end nothing more comes of it.

A message is handled when the main loop takes it from the list of its side, so
`up` and `down` also hold what has arrived and is not yet handled. Each side
finds its connections by descriptor. The number may be in the table when the
first message of a connection is processed: then the connection is not
inserted, and what comes over it until it is closed is handled as if it were
the other's.

Messages for other zones leave the model with the transfersvr, and heartbeats,
which are only logged, are left out.
-/

namespace GlobalServer

open Bytes

/-- What an event sends. -/
def Event.out : Event → Option (Int × AppHeadFrame)
  | .co _ (.sendMsg _ _ _ _ _ out) => out
  | .co _ (.callMsg _ _ _ _ _ out _) => some out
  | .co _ (.onRequest _ _ _ out) => out
  | _ => none

/-- `InCoroutine` does not look at what its own send returns. -/
def Event.ends : Event → Bool
  | .co _ (.onRequest _ _ _ _) => true
  | _ => false

namespace Zone

def SVR_TYPE_ROUTER : UInt32 := 1

/-- What follows the frame; of the bodies only those that the registration parses are told apart. -/
inductive Body where
  | bytes (data : List UInt8)
  | registerServerReq (serverType instanceId serverZone : Int)
  | registerServerRsp (code : Int)
  deriving DecidableEq

/-- A message; `no` counts them, and `via` is the connection that a server sent it over. -/
structure Packet where
  no : Nat
  via : Option Nat
  frame : AppHeadFrame
  body : Body
  deriving DecidableEq

/-- What a side has processed of a connection: not yet `M_SOCKET_IN`, that with the descriptor, or also `M_SOCKET_OUT`. -/
inductive Side where
  | before
  | between (fd : Int)
  | after

/-- The descriptor that messages are handled with. -/
def Side.fd : Side → Option Int
  | .between fd => some fd
  | _ => none

theorem Side.fd_eq_some {s : Side} {fd : Int} : s.fd = some fd ↔ s = .between fd := by
  cases s <;> simp [Side.fd]

/-- A connection of a server to a router. -/
structure Link (ι κ : Type) where
  server : ι
  router : κ
  appSide : Side
  routerSide : Side
  up : List Packet
  down : List Packet

/-- An event of a server, the message that it handles with the connection that brought it, and the one it sends. -/
structure Entry where
  event : Event
  took : Option (Nat × Packet)
  gave : Option Packet

/-- A router: `table` says which connection has a descriptor, and of the transfers only the descriptors are kept. -/
structure Router where
  instanceId : Int
  serverZone : Int
  severInstanceMgr : SeverInstanceMgr
  transferInfoVec : List Int
  table : Int → Option Nat

namespace Router

/-- The router with what it knows of its connections. -/
def application (r : Router) (netIoHandler : NetIoHandler) : RouterApplication where
  serverZone := r.serverZone
  severInstanceMgr := r.severInstanceMgr
  transferInfoVec := r.transferInfoVec
  netIoHandler := netIoHandler

/-- Whom `OnProc` sends a message on to. -/
def dests (r : Router) (frame : AppHeadFrame) : List (Dest × Int) := (r.application ⟨[], []⟩).dests frame

/-- `TransRegisterServer::OnRequest` up to the answer, and its `ret_code`. -/
def onRegister (r : Router) (fd serverType instanceId serverZone : Int) : Router × Int :=
  if UInt32.ofInt serverZone ≠ UInt32.ofInt r.serverZone then (r, -1)
  else
    let ret := r.severInstanceMgr.loginInstance (UInt32.ofInt serverType) instanceId fd
    ({ r with severInstanceMgr := ret.1 }, ret.2)

/-- The answer of `TransRegisterServer`, which has the id `transId`, to a request with the frame `ori`. -/
def registered (r : Router) (ori : AppHeadFrame) (transId len : UInt32) : AppHeadFrame where
  srcZone := UInt16.ofInt r.serverZone
  dstZone := ori.srcZone
  srcSvrType := SVR_TYPE_ROUTER
  dstSvrType := ori.srcSvrType
  srcInstId := UInt32.ofInt r.instanceId
  dstInstId := ori.srcInstId
  srcTransId := transId
  dstTransId := ori.srcTransId
  cmd := ori.cmd + 1
  cmdLength := len
  userid := ori.userid
  reqRandom := ori.reqRandom

/-- `OnDisConnection`, with `TransClientOut` when that is run. -/
def out (r : Router) (fd : Int) (handled : Bool) : Router :=
  if r.table fd = none then r
  else
    { r with
      severInstanceMgr := if handled then r.severInstanceMgr.logoutInstance fd else r.severInstanceMgr
      table := KeyTable.erase r.table fd }

end Router

end Zone

/-- The servers `ι` and the routers `κ`. Of each server the events so far are kept, and the connections have numbers. -/
structure Zone (ι κ : Type) where
  app : ι → App
  trace : ι → List Zone.Entry
  appTable : ι → Int → Option Nat
  router : κ → Zone.Router
  link : Nat → Option (Zone.Link ι κ)
  linkTop : Nat
  next : Nat

namespace Zone

variable {ι κ : Type}

inductive Op (ι κ : Type) where
  /-- An event of a server that is not the handling of a router's message: a frame may come from a client, from
  itself or from its own connections. A body is given for what it sends. -/
  | app (i : ι) (e : Event) (data : List UInt8)
  /-- the request of `SendRegistCmd`; its number is set, and then waited, as by a send that fails -/
  | regist (i : ι) (p : Nat) (fd : Int) (len : UInt32)
  /-- the next message of a connection is handled by the server -/
  | deliver (k : Nat) (target : Option Nat)
  /-- by the router, without a transaction -/
  | route (k : Nat)
  /-- by the router, with a `TransRegisterServer` -/
  | register (k : Nat) (transId len : UInt32)
  | connect (i : ι) (j : κ)
  | appIn (k : Nat) (fd : Int)
  | routerIn (k : Nat) (fd : Int)
  | appOut (k : Nat)
  | routerOut (k : Nat) (handled : Bool)
  | loseUp (k n : Nat)
  | loseDown (k n : Nat)

@[simps] def setLink (z : Zone ι κ) (k : Nat) (l : Link ι κ) : Zone ι κ :=
  { z with link := Function.update z.link k (some l) }

/-- A message is put on a connection, if it is one. -/
def push (z : Zone ι κ) (k : Nat) (f : Link ι κ → Link ι κ) : Zone ι κ :=
  match z.link k with
  | none => z
  | some l => z.setLink k (f l)

def Link.pushUp (p : Packet) (l : Link ι κ) : Link ι κ := { l with up := l.up ++ [p] }

def Link.pushDown (p : Packet) (l : Link ι κ) : Link ι κ := { l with down := l.down ++ [p] }

/-- The next message. -/
def packet (z : Zone ι κ) (via : Option Nat) (frame : AppHeadFrame) (body : Body) : Packet :=
  { no := z.next, via, frame, body }

@[simps] def record [DecidableEq ι] (z : Zone ι κ) (i : ι) (x : Entry) (a : App) : Zone ι κ :=
  { z with app := Function.update z.app i a, trace := Function.update z.trace i (z.trace i ++ [x]) }

@[simps] def setRouter [DecidableEq κ] (z : Zone ι κ) (j : κ) (r : Router) : Zone ι κ :=
  { z with router := Function.update z.router j r }

/-- A server sends a message over the connection `k`. -/
def send (z : Zone ι κ) (k : Nat) (frame : AppHeadFrame) (body : Body) : Zone ι κ :=
  { z.push k (Link.pushUp (z.packet (some k) frame body)) with next := z.next + 1 }

/-- `SendDataByFd` of a message that the router has got. -/
def hand (j : κ) (p : Packet) (z : Zone ι κ) (d : Dest × Int) : Zone ι κ :=
  match d.1, (z.router j).table d.2 with
  | .inst _ _, some k => z.push k (Link.pushDown p)
  | _, _ => z

/-- `RouterApplication::OnProc` of a message. -/
def forward (z : Zone ι κ) (j : κ) (p : Packet) : Zone ι κ := ((z.router j).dests p.frame).foldl (hand j p) z

/-- The request of `SendRegistCmd` in the transaction `t`. -/
def registMsg (t : Transaction) (len : UInt32) : Msg :=
  { cmd := CMD_REGISTER_SERVER_REQ, userid := t.userid, isBroadcast := false, dstZone := t.selfSvrZone.toUInt16
    dstSvrType := SVR_TYPE_ROUTER, dstInstId := 0, srcTransId := t.transId, dstTransId := 0, reqRandom := t.reqRandom, len }

def registReq (t : Transaction) : Body :=
  .registerServerReq (i32 t.selfSvrType.toNat) (i32 t.selfInstId.toNat) (i32 t.selfSvrZone.toNat)

/-- What an event sends, with the connection that has the descriptor it is sent to. -/
def outOver (z : Zone ι κ) (i : ι) (e : Event) : Option (Nat × AppHeadFrame) :=
  e.out.bind fun out => (z.appTable i out.1).map fun k => (k, out.2)

def stepApp [DecidableEq ι] (z : Zone ι κ) (i : ι) (e : Event) (data : List UInt8) : Option (Zone ι κ) :=
  ((z.app i).step e).bind fun a =>
    match z.outOver i e with
    | none => if e.out = none ∨ e.ends then some (z.record i ⟨e, none, none⟩ a) else none
    | some (k, frame) =>
      if data.length = frame.cmdLength.toNat then
        some ((z.record i ⟨e, none, some (z.packet (some k) frame (.bytes data))⟩ a).send k frame (.bytes data))
      else none

def stepRegist (z : Zone ι κ) (i : ι) (p : Nat) (fd : Int) (len : UInt32) : Option (Zone ι κ) := do
  let k ← z.appTable i fd
  let a := z.app i
  if a.running.map Task.trans = some p then
    some (z.send k (a.router.sendMsgByFd fd (registMsg (a.trans p) len)).2 (registReq (a.trans p)))
  else none

def stepDeliver [DecidableEq ι] (z : Zone ι κ) (k : Nat) (target : Option Nat) : Option (Zone ι κ) := do
  let l ← z.link k
  let fd ← l.appSide.fd
  let _ ← z.appTable l.server fd
  match l.down with
  | [] => none
  | p :: down =>
    ((z.app l.server).step (.dispatch fd p.frame target)).map fun a =>
      (z.record l.server ⟨.dispatch fd p.frame target, some (k, p), none⟩ a).setLink k { l with down }

def stepRoute (z : Zone ι κ) (k : Nat) : Option (Zone ι κ) := do
  let l ← z.link k
  let fd ← l.routerSide.fd
  let _ ← (z.router l.router).table fd
  match l.up with
  | [] => none
  | p :: up => some ((z.setLink k { l with up }).forward l.router p)

/-- The answer goes to the connection that the table has. -/
def stepRegister [DecidableEq κ] (z : Zone ι κ) (k : Nat) (transId len : UInt32) : Option (Zone ι κ) := do
  let l ← z.link k
  let fd ← l.routerSide.fd
  let k' ← (z.router l.router).table fd
  match l.up with
  | [] => none
  | p :: up =>
    match p.body with
    | .registerServerReq serverType instanceId serverZone =>
      if p.frame.cmd = CMD_REGISTER_SERVER_REQ then
        let r := (z.router l.router).onRegister fd serverType instanceId serverZone
        let rsp := z.packet none ((z.router l.router).registered p.frame transId len) (.registerServerRsp r.2)
        some { ((z.setRouter l.router r.1).setLink k { l with up }).push k' (Link.pushDown rsp) with next := z.next + 1 }
      else none
    | _ => none

/-- A message is taken from a connection and not handled. -/
def stepLose (z : Zone ι κ) (k : Nat) (f : Link ι κ → Link ι κ) : Option (Zone ι κ) :=
  (z.link k).map fun l => z.setLink k (f l)

def step [DecidableEq ι] [DecidableEq κ] (z : Zone ι κ) : Op ι κ → Option (Zone ι κ)
  | .app i e data => z.stepApp i e data
  | .regist i p fd len => z.stepRegist i p fd len
  | .deliver k target => z.stepDeliver k target
  | .route k => z.stepRoute k
  | .register k transId len => z.stepRegister k transId len
  | .connect i j =>
    some
      { z with
        link := Function.update z.link z.linkTop (some ⟨i, j, .before, .before, [], []⟩)
        linkTop := z.linkTop + 1 }
  | .appIn k fd => (z.link k).bind fun l =>
    match l.appSide with
    | .before =>
      some
        { z.setLink k { l with appSide := .between fd } with
          appTable := Function.update z.appTable l.server (KeyTable.insert (fun _ => fd) (z.appTable l.server) k) }
    | _ => none
  | .routerIn k fd => (z.link k).bind fun l =>
    match l.routerSide with
    | .before =>
      if checkIsTcpFd fd = true then
        let r := z.router l.router
        some
          ((z.setLink k { l with routerSide := .between fd }).setRouter l.router
            { r with table := KeyTable.insert (fun _ => fd) r.table k })
      else none
    | _ => none
  | .appOut k => do
    let l ← z.link k
    let fd ← l.appSide.fd
    some
      { z.setLink k { l with appSide := .after } with
        appTable := Function.update z.appTable l.server (KeyTable.erase (z.appTable l.server) fd) }
  | .routerOut k handled => do
    let l ← z.link k
    let fd ← l.routerSide.fd
    some
      ((z.setLink k { l with routerSide := .after }).setRouter l.router ((z.router l.router).out fd handled))
  | .loseUp k n => z.stepLose k fun l => { l with up := l.up.eraseIdx n }
  | .loseDown k n => z.stepLose k fun l => { l with down := l.down.eraseIdx n }

/-- The servers and routers before anything has happened. -/
def init (c : ι → App.Config) (routers : κ → Router) : Zone ι κ where
  app := fun i => App.init (c i)
  trace := fun _ => []
  appTable := fun _ _ => none
  router := fun j => { routers j with severInstanceMgr := .init (routers j).severInstanceMgr.config, table := fun _ => none }
  link := fun _ => none
  linkTop := 0
  next := 0

end Zone

end GlobalServer
