import GlobalServer.Netio.NetIoHandler

/-!
# Messages to a transfersvr

`SendMsgToTransferByFd` of `TransferMgr` and of `TransferInstanceMgr` fills
the member frame, appends it and the serialised message to the member buffer
and sends what the buffer holds. The buffer is not cleared between calls, and
the frame's instance id is that of the transaction.
-/

namespace GlobalServer

open Bytes AppHeadFrame

/-- The members that `SendMsgToTransferByFd` uses. -/
structure TransferSender where
  selfServerType : Int
  selfInstanceId : Int
  selfServerZone : Int
  buffer : Buffer
  frame : AppHeadFrame
  deriving DecidableEq

/-- The arguments of a call, with the connections there are at the time. A message's serialisation is a string
of less than 2 GiB. -/
structure TransferMsg where
  netIoHandler : NetIoHandler
  fd : Int
  cmd : Int
  userid : UInt64
  dstZone : UInt16
  dstSvrType : UInt32
  dstInstId : UInt32
  srcTransId : UInt32
  dstTransId : UInt32
  reqRandom : UInt32
  data : List UInt8
  data_lt : data.length < 2 ^ 31

namespace TransferSender

/-- After `Init`. -/
def init (selfServerType selfInstanceId selfServerZone : Int) : TransferSender :=
  { selfServerType, selfInstanceId, selfServerZone, buffer := Buffer.init, frame := {} }

/-- The common body: the members after it, the bytes that `SendDataByFd` is given and what is returned. -/
def sendMsgToTransferByFd (m : TransferSender) (msg : TransferMsg) :
    Except Fault (TransferSender × List UInt8 × Int) := do
  let frame :=
    { m.frame with
      isBroadcast := 0
      srcZone := UInt16.ofInt m.selfServerZone
      dstZone := msg.dstZone
      srcSvrType := UInt32.ofInt m.selfServerType
      dstSvrType := msg.dstSvrType
      srcInstId := UInt32.ofInt m.selfInstanceId
      dstInstId := msg.dstTransId
      srcTransId := msg.srcTransId
      dstTransId := msg.dstTransId
      cmd := UInt32.ofInt msg.cmd
      userid := msg.userid
      reqRandom := msg.reqRandom
      cmdLength := UInt32.ofNat msg.data.length }
  let buffer ← m.buffer.write frame.toBytes
  let buffer ← buffer.write msg.data
  let len := i32 buffer.length
  let out := msg.netIoHandler.sendDataByFd buffer.data msg.fd buffer.offset len
  .ok ({ m with frame, buffer := { buffer with data := out.1 } },
    (buffer.data.drop buffer.offset).take (len % 2 ^ 32).toNat, if out.2.isSome then 0 else -1)

/-- The members after a sequence of calls. -/
def run (send : TransferSender → TransferMsg → Except Fault (TransferSender × List UInt8 × Int)) :
    TransferSender → List TransferMsg → Except Fault TransferSender
  | m, [] => .ok m
  | m, msg :: msgs => do
    let out ← send m msg
    run send out.1 msgs

end TransferSender

/-- `SendMsgToTransferByFd` of the routersvr -/
def TransferMgr.sendMsgToTransferByFd : TransferSender → TransferMsg →
    Except Fault (TransferSender × List UInt8 × Int) :=
  TransferSender.sendMsgToTransferByFd

/-- `SendMsgToTransferByFd` of the transfersvr -/
def TransferInstanceMgr.sendMsgToTransferByFd : TransferSender → TransferMsg →
    Except Fault (TransferSender × List UInt8 × Int) :=
  TransferSender.sendMsgToTransferByFd

namespace TransferSender

/-- The frame that carries a call's arguments. -/
def frameOf (m : TransferSender) (msg : TransferMsg) : AppHeadFrame :=
  { isBroadcast := 0
    srcZone := UInt16.ofInt m.selfServerZone
    dstZone := msg.dstZone
    srcSvrType := UInt32.ofInt m.selfServerType
    dstSvrType := msg.dstSvrType
    srcInstId := UInt32.ofInt m.selfInstanceId
    dstInstId := msg.dstInstId
    srcTransId := msg.srcTransId
    dstTransId := msg.dstTransId
    cmd := UInt32.ofInt msg.cmd
    cmdLength := UInt32.ofNat msg.data.length
    userid := msg.userid
    reqRandom := msg.reqRandom }

/-- The frame that a call makes. -/
def frameMade (m : TransferSender) (msg : TransferMsg) : AppHeadFrame :=
    { m.frameOf msg with dstInstId := msg.dstTransId }

theorem frameMade_eq_iff {m : TransferSender} {msg : TransferMsg} : m.frameMade msg = m.frameOf msg ↔
    msg.dstInstId = msg.dstTransId := by
  simp [frameMade, frameOf, eq_comm]

theorem send_ok {m m' : TransferSender} {msg : TransferMsg} {bytes : List UInt8} {ret : Int}
    (h0 : m.buffer.offset = 0)
    (h : m.sendMsgToTransferByFd msg = .ok (m', bytes, ret)) :
    bytes = m.buffer.data ++ (m.frameMade msg).toBytes ++ msg.data ∧ m'.buffer.data = bytes ∧
    m'.buffer.offset = 0 := by
  unfold sendMsgToTransferByFd at h
  obtain ⟨b₁, h₁, h⟩ := Except.bind_eq_ok.mp h
  obtain ⟨b₂, h₂, h⟩ := Except.bind_eq_ok.mp h
  obtain ⟨hd₁, ho₁, -, -⟩ := Buffer.write_eq_ok h₁
  obtain ⟨hd₂, ho₂, -, hlt⟩ := Buffer.write_eq_ok h₂
  simp only [Except.ok.injEq, Prod.mk.injEq] at h
  obtain ⟨rfl, rfl, -⟩ := h
  have hoff : b₂.offset = 0 := by rw [ho₂, ho₁, h0]
  have hdata : b₂.data = m.buffer.data ++ (m.frameMade msg).toBytes ++ msg.data := by rw [hd₂, hd₁]; rfl
  have hlen : b₂.length = b₂.data.length := Buffer.length_of_offset hoff (by rw [hd₂, List.length_append]; exact hlt)
  have htake : (i32 b₂.length % 2 ^ 32).toNat = b₂.data.length := by
    rw [hlen]
    rw [hd₂, List.length_append]
    unfold i32
    omega
  have hsize : size ≤ b₂.data.length := by
    simp [hdata]
    omega
  refine ⟨?_, ?_, hoff⟩
  · rw [htake, hoff, List.drop_zero, List.take_length, hdata]
  · rw [htake]
    simp only [hoff, List.drop_zero, List.take_length]
    exact sendDataByFd_mem msg.netIoHandler hsize msg.fd _

theorem run_ok : ∀ {msgs : List TransferMsg} {m m' : TransferSender}, m.buffer.offset = 0 →
    run sendMsgToTransferByFd m msgs = .ok m' → m'.buffer.offset = 0 ∧
    m.buffer.data.length + msgs.length ≤ m'.buffer.data.length
  | [], m, m', h0, h => by
    cases h
    exact ⟨h0, Nat.le_refl _⟩
  | msg :: msgs, m, m', h0, h => by
    obtain ⟨⟨m₁, bytes, ret⟩, hs, hr⟩ := Except.bind_eq_ok.mp h
    obtain ⟨hb, hd, ho⟩ := send_ok h0 hs
    obtain ⟨ho', hl⟩ := run_ok ho hr
    refine ⟨ho', ?_⟩
    have hlen := congrArg List.length hb
    simp only [List.length_append, length_toBytes, size] at hlen
    rw [hd] at hl
    rw [List.length_cons]
    omega

theorem send_init (a b c : Int) (msg : TransferMsg) : ∃ out, sendMsgToTransferByFd (init a b c) msg = .ok out := by
  have hlt := msg.data_lt
  have hf : ((init a b c).frameMade msg).toBytes.length = 50 := length_toBytes _
  obtain ⟨b₁, h₁⟩ := Buffer.write_of_le Buffer.init ((init a b c).frameMade msg).toBytes
    (by rw [hf]; simp [Buffer.init, M_BUFFER_DEFAILT_SIZE])
  have hb := (Buffer.write_eq_ok h₁).1
  obtain ⟨b₂, h₂⟩ := Buffer.write_of_le b₁ msg.data
    (by rw [hb, List.length_append, hf]; simp only [Buffer.init, List.length_nil, M_BUFFER_DEFAILT_SIZE]; omega)
  exact ⟨_, Except.bind_eq_ok.mpr ⟨b₁, h₁, Except.bind_eq_ok.mpr ⟨b₂, h₂, rfl⟩⟩⟩

/-- After the calls `msgs` the call `msg` gives the bytes to `SendDataByFd`. -/
def Hands (send : TransferSender → TransferMsg → Except Fault (TransferSender × List UInt8 × Int))
    (m : TransferSender)
    (msgs : List TransferMsg) (msg : TransferMsg) (bytes : List UInt8) : Prop :=
  ∃ m₁ m₂ ret, run send m msgs = .ok m₁ ∧ send m₁ msg = .ok (m₂, bytes, ret)

theorem hands_iff (a b c : Int) (msgs : List TransferMsg) (msg : TransferMsg) :
    Hands sendMsgToTransferByFd (init a b c) msgs msg (((init a b c).frameOf msg).toBytes ++ msg.data) ↔
      msgs = [] ∧ msg.dstInstId = msg.dstTransId := by
  constructor
  · rintro ⟨m₁, m₂, ret, hr, hs⟩
    obtain ⟨h0, hl⟩ := run_ok rfl hr
    obtain ⟨hb, -, -⟩ := send_ok h0 hs
    have hlen := congrArg List.length hb
    simp only [List.length_append, length_toBytes] at hlen
    have hnil : msgs = [] := List.length_eq_zero_iff.mp (by omega)
    subst hnil
    cases hr
    refine ⟨rfl, (frameMade_eq_iff (m := init a b c)).mp ?_⟩
    have hbytes : ((init a b c).frameOf msg).toBytes ++ msg.data = ((init a b c).frameMade msg).toBytes ++ msg.data := hb
    rw [← ofBytes_toBytes ((init a b c).frameMade msg) msg.data, ← hbytes, ofBytes_toBytes]
  · rintro ⟨rfl, he⟩
    obtain ⟨⟨m', bytes, ret⟩, hs⟩ := send_init a b c msg
    have hb : bytes = ((init a b c).frameMade msg).toBytes ++ msg.data := (send_ok rfl hs).1
    rw [frameMade_eq_iff.mpr he] at hb
    exact ⟨init a b c, m', ret, rfl, hb ▸ hs⟩

/-- Of either function: a call gives `SendDataByFd` the frame with its arguments and its message, and nothing
else, if and only if it is the first one and its instance id is its transaction id. -/
theorem transfer_bytes (a b c : Int) (msgs : List TransferMsg) (msg : TransferMsg) :
    (Hands TransferMgr.sendMsgToTransferByFd (init a b c) msgs msg (((init a b c).frameOf msg).toBytes ++ msg.data) ↔
      msgs = [] ∧ msg.dstInstId = msg.dstTransId) ∧
    (Hands TransferInstanceMgr.sendMsgToTransferByFd (init a b c) msgs msg (((init a b c).frameOf msg).toBytes ++ msg.data) ↔
      msgs = [] ∧ msg.dstInstId = msg.dstTransId) :=
  ⟨hands_iff a b c msgs msg, hands_iff a b c msgs msg⟩

/-- A heartbeat of two bytes for the transfersvr 7. -/
def heartbeat : TransferMsg where
  netIoHandler := { tcpSocketContainer := [], tcpConnectorContainer := [M_TCP_CONNECTOR_FD_FLAG + 5] }
  fd := M_TCP_CONNECTOR_FD_FLAG + 5
  cmd := 0x10
  userid := 0
  dstZone := 1
  dstSvrType := 3
  dstInstId := 7
  srcTransId := 0
  dstTransId := 0
  reqRandom := 0
  data := [8, 1]
  data_lt := by decide

/-- The first heartbeat does not carry the instance id, and the second is sent behind the first. -/
theorem heartbeat_bytes :
    ¬ Hands TransferMgr.sendMsgToTransferByFd (init 1 1 1) [] heartbeat
      (((init 1 1 1).frameOf heartbeat).toBytes ++ heartbeat.data) ∧
      ¬ Hands TransferMgr.sendMsgToTransferByFd (init 1 1 1) [heartbeat] heartbeat
        (((init 1 1 1).frameOf heartbeat).toBytes ++ heartbeat.data) := by
  constructor
  · intro h
    have he := ((hands_iff 1 1 1 [] heartbeat).mp h).2
    revert he
    decide
  · intro h
    have he := ((hands_iff 1 1 1 [heartbeat] heartbeat).mp h).1
    cases he

end TransferSender

end GlobalServer
