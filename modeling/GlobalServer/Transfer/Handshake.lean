import GlobalServer.Lib.Runs
import GlobalServer.Router.Forward
import GlobalServer.Transfer.InstMgr

/-!
# Two transfersvrs and their registration

A transfersvr that has connected to another sends it a `RegisterTransferReq`,
again and again until it is answered with the code 0. What is received passes
`OnProc`, which hands a few commands to the transactions and drops the rest.

What is sent is all that was ever written to `_buffer`; the receiver reads the
first frame of it. The connections lose nothing and stay open.
-/

namespace GlobalServer.Handshake

def SVR_TYPE_TRANSFER : UInt32 := 0x3

def CMD_REGISETR_TRANSFER_REQ : UInt32 := 0x5

def CMD_REGISETR_TRANSFER_RSP : UInt32 := 0x6

def CMD_TRANSFER_HEATBEAT : UInt32 := 0x11

inductive SvrMsg where
  | socketClientIn
  | registerTransferReq (serverType instanceId serverZone : Int32)
  | registerTransferRsp (code : Int32)
  | transferHeatBeat (serverZone instanceId : Int32)
  deriving DecidableEq

/-- A negative number is written with 64 bits. -/
def varintSize (x : Int32) : Nat := Nat.log2 (x.toInt % 2 ^ 64).toNat / 7 + 1

/-- The length of the serialised message -/
def SvrMsg.length : SvrMsg → Nat
  | .socketClientIn => 0
  | .registerTransferReq serverType instanceId serverZone =>
    3 + varintSize serverType + varintSize instanceId + varintSize serverZone
  | .registerTransferRsp code => 3 + varintSize code
  | .transferHeatBeat serverZone instanceId => 2 + varintSize serverZone + varintSize instanceId

structure Packet where
  frame : AppHeadFrame
  msg : SvrMsg
  deriving DecidableEq

/-- A `TcpConnector`, as a transaction sees it. -/
structure Connector where
  ip : String
  port : UInt32
  listenConnType : Int
  listenConnNum : Int32
  deriving DecidableEq

/-- A `TransClientIn` in `SendRegistCmd`, at the `Wait` for the response or in the pause after a refusal. -/
structure TransClientIn where
  transId : UInt32
  reqRandom : UInt32
  fd : Int
  connector : Connector
  pausing : Bool
  deriving DecidableEq

/-- What a server hands to `SendDataByFd`. -/
abbrev Sent := List (Int × List Packet)

/-- A transfersvr. Of its transactions only a `TransClientIn` ever waits. -/
structure TransferServer where
  mgr : TransferInstanceMgr
  /-- `_buffer` of `TransferInstanceMgr` -/
  buffer : List Packet
  transIdGenerator : UInt32
  maxConcurrentTrans : Int
  active : List TransClientIn
  connectors : List (Int × Connector)
  sockets : List Int

namespace TransferServer

/-- The commands that `OnProc` hands to the transactions. -/
def procCmds : List UInt32 :=
  [CMD_SOCKET_CLIENT_OUT, CMD_SOCKET_CLIENT_IN, CMD_REGISTER_SERVER_REQ, CMD_REGISTER_SERVER_RSP, CMD_SVR_HEATBEAT,
    CMD_TRANSFER_HEATBEAT]

/-- The commands that transactions are registered for. -/
def transCmds : List UInt32 :=
  [CMD_SOCKET_CLIENT_IN, CMD_SOCKET_CLIENT_OUT, CMD_REGISTER_SERVER_REQ, CMD_REGISETR_TRANSFER_REQ, CMD_SVR_HEATBEAT,
    CMD_TRANSFER_HEATBEAT]

/-- Whether `SendDataByFd` finds the connection. -/
def hasFd (s : TransferServer) (fd : Int) : Bool := s.sockets.contains fd || s.connectors.any fun c => c.1 = fd

def sendDataByFd (s : TransferServer) (fd : Int) (data : List Packet) : Sent := if s.hasFd fd then [(fd, data)] else []

/-- `TransferInstanceMgr::SendMsgToTransferByFd`, which sets the instance id to that of the transaction, and does not
clear the buffer. -/
def sendMsgToTransferByFd (s : TransferServer) (fd : Int) (cmd : UInt32) (userid : UInt64) (dstZone : UInt16)
    (dstSvrType srcTransId dstTransId reqRandom : UInt32) (msg : SvrMsg) : TransferServer × Sent :=
  let frame : AppHeadFrame :=
    { isBroadcast := 0, srcZone := .ofInt s.mgr.selfServerZone.toInt, dstZone, srcSvrType := SVR_TYPE_TRANSFER
      dstSvrType, srcInstId := .ofInt s.mgr.selfInstanceId.toInt, dstInstId := dstTransId, srcTransId, dstTransId, cmd
      cmdLength := .ofNat msg.length, userid, reqRandom }
  let buffer := s.buffer ++ [⟨frame, msg⟩]
  ({ s with buffer }, s.sendDataByFd fd buffer)

/-- `SendRegistCmd` of a transaction from the request to its `Wait`; `r` is what `rand` gives. -/
def sendRegistCmd (s : TransferServer) (w : TransClientIn) (r : UInt32) : TransferServer × Sent :=
  let out := s.sendMsgToTransferByFd w.fd CMD_REGISETR_TRANSFER_REQ 0 0 SVR_TYPE_TRANSFER w.transId 0 r
    (.registerTransferReq 3 s.mgr.selfInstanceId s.mgr.selfServerZone)
  ({ out.1 with active := { w with reqRandom := r, pausing := false } :: s.active }, out.2)

def transClientIn (s : TransferServer) (transId : UInt32) (fd : Int) (r : UInt32) : TransferServer × Sent :=
  match s.connectors.lookup fd with
  | none => (s, [])
  | some connector =>
    if connector.listenConnType = Enum_ConnType_Transfer2 then
      s.sendRegistCmd { transId, reqRandom := 0, fd, connector, pausing := false } r
    else (s, [])

def transRegisterTransfer (s : TransferServer) (transId : UInt32) (fd : Int) (frame : AppHeadFrame)
    (serverZone instanceId : Int32) : TransferServer × Sent :=
  -- what `LoginTransfer` returns
  let msg := SvrMsg.registerTransferRsp 0
  let frame : AppHeadFrame :=
    { isBroadcast := 0, srcZone := .ofInt s.mgr.selfServerZone.toInt, dstZone := frame.srcZone
      srcSvrType := SVR_TYPE_TRANSFER, dstSvrType := frame.srcSvrType, srcInstId := .ofInt s.mgr.selfInstanceId.toInt
      dstInstId := frame.srcInstId, srcTransId := transId, dstTransId := frame.srcTransId, cmd := frame.cmd + 1
      cmdLength := .ofNat msg.length, userid := frame.userid, reqRandom := frame.reqRandom }
  ({ s with mgr := s.mgr.loginTransfer serverZone instanceId fd }, s.sendDataByFd fd [⟨frame, msg⟩])

/-- What a transaction does when its `Wait` returns because of a message, if it is one. -/
def resume (s : TransferServer) (w : TransClientIn) (msg : Option SvrMsg) (r : UInt32) : TransferServer × Sent :=
  let s := { s with active := s.active.erase w }
  if w.pausing then s.sendRegistCmd w r
  else match msg with
    | some (.registerTransferRsp code) =>
      if code = 0 then
        ({ s with mgr := s.mgr.loginByAddress w.connector.ip w.connector.port w.connector.listenConnNum w.fd }, [])
      else ({ s with active := { w with pausing := true } :: s.active }, [])
    | _ => s.sendRegistCmd w r

/-- The transaction that is made for a frame. -/
def createTransaction (s : TransferServer) (fd : Int) (p : Packet) (r : UInt32) : TransferServer × Sent :=
  if s.maxConcurrentTrans < s.active.length ∨ p.frame.cmd ∉ transCmds then (s, [])
  else
    let transId := s.transIdGenerator
    let s := { s with transIdGenerator := s.transIdGenerator + 1 }
    if p.frame.cmd = CMD_SOCKET_CLIENT_IN then s.transClientIn transId fd r
    else if p.frame.cmd = CMD_REGISETR_TRANSFER_REQ then
      match p.msg with
      | .registerTransferReq _ instanceId serverZone => s.transRegisterTransfer transId fd p.frame serverZone instanceId
      | _ => (s, [])
    -- a heartbeat is only logged, and what else there is does not come from a transfersvr
    else (s, [])

def processFrame (s : TransferServer) (fd : Int) (p : Packet) (r : UInt32) : TransferServer × Sent :=
  if 0 < p.frame.dstTransId then
    match s.active.find? fun w => w.transId = p.frame.dstTransId with
    | none => (s, [])
    | some w => if w.reqRandom ≠ 0 ∧ w.reqRandom ≠ p.frame.reqRandom then (s, []) else s.resume w (some p.msg) r
  else s.createTransaction fd p r

/-- `TransferApplication::OnProc`; what is not dispatched is not forwarded either. -/
def onProc (s : TransferServer) (fd : Int) (p : Packet) (r : UInt32) : TransferServer × Sent :=
  if p.frame.cmd ∈ procCmds then s.processFrame fd p r else (s, [])

/-- `OnConnection` of a connector, or of a socket that was accepted -/
def onConnection (s : TransferServer) (fd : Int) (connector : Option Connector) (r : UInt32) : TransferServer × Sent :=
  let s := match connector with
    | some c => { s with connectors := (fd, c) :: s.connectors }
    | none => { s with sockets := fd :: s.sockets }
  s.onProc fd ⟨{ cmd := CMD_SOCKET_CLIENT_IN }, .socketClientIn⟩ r

/-- `Tick`: a heartbeat to each transfer that connects to this one. -/
def tick (s : TransferServer) : List TransferSvrInfo → TransferServer × Sent
  | [] => (s, [])
  | e :: l =>
    if e.active then s.tick l
    else
      let out := s.sendMsgToTransferByFd e.fd CMD_TRANSFER_HEATBEAT 0 (.ofInt e.zone.toInt) SVR_TYPE_TRANSFER 0 0 0
        (.transferHeatBeat s.mgr.selfServerZone s.mgr.selfInstanceId)
      let rest := out.1.tick l
      (rest.1, out.2 ++ rest.2)

end TransferServer

/-! ## The two servers -/

inductive Side where
  | a
  | b
  deriving DecidableEq

def Side.other : Side → Side
  | .a => .b
  | .b => .a

/-- A connection: who has made it, the descriptor that each side has of it, and what is on the way to each side. -/
structure Link where
  dialer : Side
  connector : Connector
  fd : Side → Int
  wire : Side → List (List Packet)

/-- What a side sends goes to the other. -/
def Link.post (l : Link) (side : Side) (sent : Sent) : Link :=
  { l with
    wire := Function.update l.wire side.other
      (l.wire side.other ++ (sent.filter fun x => x.1 = l.fd side).map Prod.snd) }

/-- The side of a link that has been connected to is an accepted socket. -/
def Link.connectorOf (l : Link) (side : Side) : Option Connector := if l.dialer = side then some l.connector else none

/-- A frame that `OnProc` was called with: the server before and after it, and what was sent for it. -/
structure Delivery where
  fd : Int
  packet : Packet
  before : TransferServer
  after : TransferServer
  sent : Sent

structure System where
  server : Side → TransferServer
  links : List Link
  /-- the frames that came from the other side -/
  log : List Delivery

inductive Event where
  /-- a connection is made; each side has its descriptor of it -/
  | connect (dialer : Side) (connector : Connector) (fd : Side → Int)
  /-- a side takes the connection from its queue -/
  | onConnection (i : Nat) (side : Side) (r : UInt32)
  /-- a side takes the first message from its queue -/
  | deliver (i : Nat) (side : Side) (r : UInt32)
  /-- the timer of a `Wait` -/
  | timeout (side : Side) (w : TransClientIn) (r : UInt32)
  | tick (side : Side)

namespace System

def put (y : System) (side : Side) (out : TransferServer × Sent) : System :=
  { y with
    server := Function.update y.server side out.1
    links := y.links.map fun l => l.post side out.2 }

/-- The links after one message has been taken from one of them. -/
def take (y : System) (i : Nat) (l : Link) (side : Side) (rest : List (List Packet)) : System :=
  { y with links := y.links.set i { l with wire := Function.update l.wire side rest } }

def step (y : System) : Event → Option System
  | .connect dialer connector fd =>
    if ∀ l ∈ y.links, l.fd .a ≠ fd .a ∧ l.fd .b ≠ fd .b then
      some { y with links := y.links ++ [{ dialer, connector, fd, wire := fun _ => [] }] }
    else none
  | .onConnection i side r => do
    let l ← y.links[i]?
    if (y.server side).hasFd (l.fd side) then none
    else some (y.put side ((y.server side).onConnection (l.fd side) (l.connectorOf side) r))
  | .deliver i side r => do
    let l ← y.links[i]?
    if (y.server side).hasFd (l.fd side) then
      match l.wire side with
      | (p :: _) :: rest =>
        let before := y.server side
        let out := before.onProc (l.fd side) p r
        let y := (y.take i l side rest).put side out
        some { y with log := y.log ++ [{ fd := l.fd side, packet := p, before, after := out.1, sent := out.2 }] }
      | _ => none
    else none
  | .timeout side w r =>
    if w ∈ (y.server side).active then some (y.put side ((y.server side).resume w none r)) else none
  | .tick side => some (y.put side ((y.server side).tick (y.server side).mgr.zoneTransferMap.entries))

def start (mgr : Side → TransferInstanceMgr) (maxConcurrentTrans : Side → Int) : System :=
  { server := fun side =>
      { mgr := mgr side, buffer := [], transIdGenerator := 1, maxConcurrentTrans := maxConcurrentTrans side, active := []
        connectors := [], sockets := [] }
    links := [], log := [] }

abbrev Run (y₀ : System) : List Event → System → Prop :=
  Runs.Run (fun y e y' => y.step e = some y') (fun _ _ _ => True) y₀

end System

/-! ## No response is ever sent -/

def NoRsp (data : List Packet) : Prop := ∀ p ∈ data, p.frame.cmd ≠ CMD_REGISETR_TRANSFER_RSP

/-- There is no response in the buffer that a server is left with, nor in what it has sent. -/
structure NoRspOut (out : TransferServer × Sent) : Prop where
  buffer : NoRsp out.1.buffer
  sent : ∀ x ∈ out.2, NoRsp x.2

theorem NoRspOut.unsent {s : TransferServer} (h : NoRsp s.buffer) : NoRspOut (s, []) := ⟨h, by simp⟩

/-- What is to come of a request: its sender is online, and one response goes to the transaction that has sent it. -/
structure Registers (fd : Int) (frame : AppHeadFrame) (serverZone instanceId : Int32) (out : TransferServer × Sent) :
    Prop where
  online : ∀ e ∈ out.1.mgr.zoneTransferMap.entries, e.key = (serverZone, instanceId) → e.online = true ∧ e.fd = fd
  answered : ∃ rsp, out.2 = [(fd, [rsp])] ∧ rsp.frame.cmd = frame.cmd + 1 ∧ rsp.frame.dstTransId = frame.srcTransId ∧
    rsp.frame.reqRandom = frame.reqRandom

namespace TransferServer

variable {s : TransferServer} {fd : Int} {p : Packet} {r : UInt32} {w : TransClientIn}

theorem sendMsgToTransferByFd_noRsp {cmd : UInt32} {userid : UInt64} {dstZone : UInt16} {a b c d : UInt32}
    {msg : SvrMsg} (h : NoRsp s.buffer) (hc : cmd ≠ CMD_REGISETR_TRANSFER_RSP) :
    NoRspOut (s.sendMsgToTransferByFd fd cmd userid dstZone a b c d msg) := by
  have hb : NoRsp (s.sendMsgToTransferByFd fd cmd userid dstZone a b c d msg).1.buffer := by
    intro p hp
    rcases List.mem_append.mp hp with hp | hp
    · exact h p hp
    · simp only [List.mem_singleton] at hp
      subst hp
      exact hc
  refine ⟨hb, fun x hx => ?_⟩
  simp only [sendMsgToTransferByFd, sendDataByFd] at hx
  split at hx
  · simp only [List.mem_singleton] at hx
    subst hx
    exact hb
  · simp at hx

theorem sendRegistCmd_noRsp (h : NoRsp s.buffer) : NoRspOut (s.sendRegistCmd w r) := by
  have hout : NoRspOut (s.sendMsgToTransferByFd w.fd CMD_REGISETR_TRANSFER_REQ 0 0 SVR_TYPE_TRANSFER w.transId 0 r
      (.registerTransferReq 3 s.mgr.selfInstanceId s.mgr.selfServerZone)) :=
    sendMsgToTransferByFd_noRsp h (by decide)
  exact ⟨hout.1, hout.2⟩

theorem transClientIn_noRsp {transId : UInt32} (h : NoRsp s.buffer) : NoRspOut (s.transClientIn transId fd r) := by
  unfold transClientIn
  cases s.connectors.lookup fd with
  | none => exact .unsent h
  | some connector =>
    simp only
    split
    · exact sendRegistCmd_noRsp h
    · exact .unsent h

theorem resume_noRsp {msg : Option SvrMsg} (h : NoRsp s.buffer) : NoRspOut (s.resume w msg r) := by
  unfold resume
  simp only
  split
  · exact sendRegistCmd_noRsp h
  · split
    · split
      · exact .unsent h
      · exact .unsent h
    · exact sendRegistCmd_noRsp h

theorem createTransaction_noRsp (h : NoRsp s.buffer) (hc : p.frame.cmd ≠ CMD_REGISETR_TRANSFER_REQ) :
    NoRspOut (s.createTransaction fd p r) := by
  unfold createTransaction
  split
  · exact .unsent h
  · simp only
    split
    · exact transClientIn_noRsp h
    · exact .unsent h

theorem onProc_noRsp (h : NoRsp s.buffer) : NoRspOut (s.onProc fd p r) := by
  unfold onProc
  split
  · rename_i hp
    unfold processFrame
    split
    · cases s.active.find? fun w => w.transId = p.frame.dstTransId with
      | none => exact .unsent h
      | some w =>
        simp only
        split
        · exact .unsent h
        · exact resume_noRsp h
    · apply createTransaction_noRsp h
      intro hc
      rw [hc] at hp
      exact absurd hp (by decide)
  · exact .unsent h

theorem onConnection_noRsp {connector : Option Connector} (h : NoRsp s.buffer) :
    NoRspOut (s.onConnection fd connector r) := by
  unfold onConnection
  cases connector with
  | none => exact onProc_noRsp h
  | some c => exact onProc_noRsp h

theorem tick_noRsp (h : NoRsp s.buffer) (l : List TransferSvrInfo) : NoRspOut (s.tick l) := by
  induction l generalizing s with
  | nil => exact .unsent h
  | cons e l ih =>
    unfold tick
    split
    · exact ih h
    · have hout : NoRspOut (s.sendMsgToTransferByFd e.fd CMD_TRANSFER_HEATBEAT 0 (.ofInt e.zone.toInt) SVR_TYPE_TRANSFER
          0 0 0 (.transferHeatBeat s.mgr.selfServerZone s.mgr.selfInstanceId)) :=
        sendMsgToTransferByFd_noRsp h (by decide)
      obtain ⟨hb, hs⟩ := hout
      obtain ⟨hb', hs'⟩ := ih hb
      refine ⟨hb', fun x hx => ?_⟩
      rcases List.mem_append.mp hx with hx | hx
      · exact hs x hx
      · exact hs' x hx

/-- A request that `OnProc` is called with is neither dispatched nor answered. -/
theorem onProc_registerTransferReq (hc : p.frame.cmd = CMD_REGISETR_TRANSFER_REQ) : s.onProc fd p r = (s, []) := by
  unfold onProc
  rw [hc, if_neg (by decide)]

/-- The transaction for a request would do all that there is to be done. -/
theorem transRegisterTransfer_registers {transId : UInt32} {frame : AppHeadFrame} {serverZone instanceId : Int32}
    (hfd : s.hasFd fd = true) :
    Registers fd frame serverZone instanceId (s.transRegisterTransfer transId fd frame serverZone instanceId) := by
  refine ⟨fun e he hk => ?_, ?_⟩
  · exact TransferInstanceMgr.loginTransfer_online he hk
  · simp only [transRegisterTransfer, sendDataByFd, if_pos hfd]
    exact ⟨_, rfl, rfl, rfl, rfl⟩

end TransferServer

/-! ## What is delivered -/

/-- A delivered request registers who has sent it, and a delivered response resumes the transaction that waits for
it. -/
structure Delivery.Ok (d : Delivery) : Prop where
  request : d.packet.frame.cmd = CMD_REGISETR_TRANSFER_REQ → ∃ serverType instanceId serverZone,
    d.packet.msg = .registerTransferReq serverType instanceId serverZone ∧
      Registers d.fd d.packet.frame serverZone instanceId (d.after, d.sent)
  response : d.packet.frame.cmd = CMD_REGISETR_TRANSFER_RSP → ∀ w ∈ d.before.active,
    w.transId = d.packet.frame.dstTransId → w.reqRandom = d.packet.frame.reqRandom → w ∉ d.after.active

namespace System

/-- Nothing that either side has written, sent or been given is a response. -/
structure Silent (y : System) : Prop where
  server : ∀ side, NoRsp (y.server side).buffer
  links : ∀ l ∈ y.links, ∀ side, ∀ m ∈ l.wire side, NoRsp m
  log : ∀ d ∈ y.log, d.packet.frame.cmd ≠ CMD_REGISETR_TRANSFER_RSP ∧
    (d.packet.frame.cmd = CMD_REGISETR_TRANSFER_REQ → d.sent = [])

theorem Silent.put {y : System} (h : Silent y) {side : Side} {out : TransferServer × Sent} (ho : NoRspOut out) :
    Silent (y.put side out) := by
  refine ⟨fun side' => ?_, fun l hl side' m hm => ?_, h.log⟩
  · by_cases hs : side' = side
    · subst hs
      simpa [System.put] using ho.buffer
    · simpa [System.put, hs] using h.server side'
  · obtain ⟨l₀, hl₀, rfl⟩ := List.mem_map.mp hl
    by_cases hs : side' = side.other
    · subst hs
      simp only [Link.post, Function.update_self, List.mem_append, List.mem_map, List.mem_filter] at hm
      rcases hm with hm | ⟨x, ⟨hx, -⟩, rfl⟩
      · exact h.links l₀ hl₀ _ m hm
      · exact ho.sent x hx
    · simp only [Link.post, Function.update_of_ne hs] at hm
      exact h.links l₀ hl₀ side' m hm

theorem Silent.take {y : System} (h : Silent y) {i : Nat} {l : Link} {side : Side} {m : List Packet}
    {rest : List (List Packet)} (hl : y.links[i]? = some l) (hw : l.wire side = m :: rest) :
    Silent (y.take i l side rest) := by
  have hmem := List.mem_of_getElem? hl
  refine ⟨h.server, fun l' hl' side' m' hm' => ?_, h.log⟩
  rcases List.mem_or_eq_of_mem_set hl' with hl' | rfl
  · exact h.links l' hl' side' m' hm'
  · by_cases hs : side' = side
    · subst hs
      simp only [Function.update_self] at hm'
      exact h.links l hmem _ m' (hw ▸ List.mem_cons_of_mem m hm')
    · simp only [Function.update_of_ne hs] at hm'
      exact h.links l hmem side' m' hm'

theorem Silent.step {y y' : System} (h : Silent y) {e : Event} (hst : y.step e = some y') : Silent y' := by
  cases e with
  | connect dialer connector fd =>
    simp only [System.step, Option.ite_none_right_eq_some, Option.some.injEq] at hst
    obtain ⟨-, rfl⟩ := hst
    refine ⟨h.server, fun l hl side m hm => ?_, h.log⟩
    rcases List.mem_append.mp hl with hl | hl
    · exact h.links l hl side m hm
    · simp only [List.mem_singleton] at hl
      subst hl
      simp at hm
  | onConnection i side r =>
    simp only [System.step, Option.bind_eq_bind, Option.bind_eq_some_iff] at hst
    obtain ⟨l, -, hst⟩ := hst
    simp only [Option.ite_none_left_eq_some, Option.some.injEq] at hst
    obtain ⟨-, rfl⟩ := hst
    exact h.put (TransferServer.onConnection_noRsp (h.server side))
  | deliver i side r =>
    simp only [System.step, Option.bind_eq_bind, Option.bind_eq_some_iff] at hst
    obtain ⟨l, hl, hst⟩ := hst
    simp only [Option.ite_none_right_eq_some] at hst
    obtain ⟨-, hst⟩ := hst
    split at hst
    · rename_i p ps rest hw
      simp only [Option.some.injEq] at hst
      subst hst
      have hout : NoRspOut ((y.server side).onProc (l.fd side) p r) := TransferServer.onProc_noRsp (h.server side)
      have ht : Silent ((y.take i l side rest).put side _) := (h.take hl hw).put hout
      refine ⟨ht.server, ht.links, fun d hd => ?_⟩
      rcases List.mem_append.mp hd with hd | hd
      · exact h.log d hd
      · simp only [List.mem_singleton] at hd
        subst hd
        have hm : NoRsp (p :: ps) := h.links l (List.mem_of_getElem? hl) side (p :: ps) (by simp [hw])
        refine ⟨hm p (by simp), fun hc => ?_⟩
        rw [TransferServer.onProc_registerTransferReq hc]
    · cases hst
  | timeout side w r =>
    simp only [System.step, Option.ite_none_right_eq_some, Option.some.injEq] at hst
    obtain ⟨-, rfl⟩ := hst
    exact h.put (TransferServer.resume_noRsp (h.server side))
  | tick side =>
    simp only [System.step, Option.some.injEq] at hst
    subst hst
    exact h.put (TransferServer.tick_noRsp (h.server side) _)

theorem Silent.of_run {mgr : Side → TransferInstanceMgr} {maxConcurrentTrans : Side → Int} {t : List Event} {y : System}
    (h : Run (start mgr maxConcurrentTrans) t y) : Silent y :=
  h.invariant (fun _ y => Silent y) ⟨fun _ => by simp [start, NoRsp], by simp [start], by simp [start]⟩
    fun _ _ _ _ _ hi _ hst => hi.step hst

/-- The handshake does what it is for in exactly the runs in which no request is ever delivered. -/
theorem handshake_iff {mgr : Side → TransferInstanceMgr} {maxConcurrentTrans : Side → Int} {t : List Event} {y : System}
    (h : Run (start mgr maxConcurrentTrans) t y) :
    (∀ d ∈ y.log, d.Ok) ↔ ∀ d ∈ y.log, d.packet.frame.cmd ≠ CMD_REGISETR_TRANSFER_REQ := by
  have hs := Silent.of_run h
  constructor
  · intro hok d hd hc
    obtain ⟨_, _, _, -, hr⟩ := (hok d hd).request hc
    obtain ⟨rsp, hsent, -⟩ := hr.answered
    rw [(hs.log d hd).2 hc] at hsent
    cases hsent
  · intro hno d hd
    exact ⟨fun hc => absurd hc (hno d hd), fun hc => absurd hc (hs.log d hd).1⟩

/-- The transfer with an id, which knows transfer 1 and transfer 2 of zone 1. -/
def transfer (instId : Int32) : TransferInstanceMgr :=
  ((TransferInstanceMgr.start "transfer.conf" 1 instId).reload
    (fun _ => some
      [{ listenIp := "10.0.0.1", listenPort := 7011, instId := 1, svrZone := 1, listenPort2 := 7012 },
        { listenIp := "10.0.0.2", listenPort := 7021, instId := 2, svrZone := 1, listenPort2 := 7022 }]) (.id _)).1.1

/-- Transfer 1 and transfer 2, which have been started. -/
def twoTransfers : System := start (fun side => transfer (if side = .a then 1 else 2)) fun _ => 1000

def toTransferTwo : Connector := { ip := "10.0.0.2", port := 7022, listenConnType := 3, listenConnNum := 2 }

/-- Transfer 1 connects to transfer 2. -/
def connected : List Event :=
  [.connect .a toTransferTwo fun side => if side = .a then 2 ^ 33 + 7 else 2 ^ 34 + 9, .onConnection 0 .b 0,
    .onConnection 0 .a 12345]

/-- Its transaction for the connection, after a request -/
def waiting (reqRandom : UInt32) : TransClientIn :=
  { transId := 1, reqRandom, fd := 2 ^ 33 + 7, connector := toTransferTwo, pausing := false }

/-- Transfer 2 has had transfer 1 before, over a connection with the same descriptor. -/
def twoAgain : System :=
  start (fun side => if side = .a then transfer 1 else (transfer 2).loginTransfer 1 1 (2 ^ 34 + 9)) fun _ => 1000

/-- Transfer 1 sends its request once more, and takes a heartbeat before the request is received. -/
theorem handshake_iff_heartbeat : ∃ y,
    Run twoAgain (connected ++ [.tick .b, .timeout .a (waiting 12345) 23456, .deliver 0 .a 0]) y ∧
      (y.log.map fun d => d.packet.frame.cmd) = [CMD_TRANSFER_HEATBEAT] ∧
      ((∀ d ∈ y.log, d.Ok) ↔ ∀ d ∈ y.log, d.packet.frame.cmd ≠ CMD_REGISETR_TRANSFER_REQ) := by
  have h : (Runs.replay step twoAgain (connected ++ [.tick .b, .timeout .a (waiting 12345) 23456, .deliver 0 .a 0])).map
      (fun y => y.log.map fun d => d.packet.frame.cmd) = some [CMD_TRANSFER_HEATBEAT] := by
    decide +kernel
  obtain ⟨y, hy, hlog⟩ := Option.map_eq_some_iff.mp h
  exact ⟨y, .of_replay hy, hlog, handshake_iff (.of_replay hy)⟩

/-- The request is delivered, and transfer 2 does not answer it. -/
theorem request_is_dropped : ∃ y, Run twoTransfers (connected ++ [.deliver 0 .b 0]) y ∧ ¬ ∀ d ∈ y.log, d.Ok := by
  have h : (Runs.replay step twoTransfers (connected ++ [.deliver 0 .b 0])).map (fun y => y.log.map fun d =>
      (d.packet.frame.cmd, d.sent)) = some [(CMD_REGISETR_TRANSFER_REQ, [])] := by decide +kernel
  obtain ⟨y, hy, hlog⟩ := Option.map_eq_some_iff.mp h
  refine ⟨y, .of_replay hy, fun hok => ?_⟩
  have hd : (CMD_REGISETR_TRANSFER_REQ, []) ∈ y.log.map fun d => (d.packet.frame.cmd, d.sent) := by simp [hlog]
  obtain ⟨d, hd, he⟩ := List.mem_map.mp hd
  obtain ⟨hc, hsent⟩ := Prod.mk.inj he
  obtain ⟨_, _, _, -, hr⟩ := (hok d hd).request hc
  obtain ⟨rsp, hans, -⟩ := hr.answered
  rw [hsent] at hans
  cases hans

end System

end GlobalServer.Handshake
