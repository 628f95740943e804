import GlobalServer.Netio.NetIoHandler
import GlobalServer.Netio.SendLengths
import GlobalServer.Transaction.Frame
import Mathlib.Logic.Function.Basic

/-!
# What a send reports

`SendDataByFd` asks the connection of a descriptor to queue a packet, and says
that it has been sent whenever there is such a connection. `SendMsgByFd` and
what is made of it give that on.
-/

namespace GlobalServer

open Bytes PacketHeader

namespace TcpBaseSocket

def sendPacket (s : TcpBaseSocket) (data : List UInt8) (error : Bool) : Except Fault (TcpBaseSocket × Bool) := do
  let r ← (SendCall.sendPacket data).perform s.writer
  .ok (if r.2 then ({ s with msgbuffer2 := r.1.msgbuffer2 }.trySendData error).1 else s, r.2)

/-- The socket is connected, and a packet with `n` bytes is not too long for it or for what is waiting. -/
def Accepts (s : TcpBaseSocket) (n : Nat) : Prop :=
  s.flag = .start ∧ n + hdrlen ≤ M_SOCKET_PACK_SIZE ∧ s.msgbuffer2.pos + (n + hdrlen) ≤ E_MAX_BUFFER_SIZE

instance (s : TcpBaseSocket) (n : Nat) : Decidable (s.Accepts n) := by unfold Accepts; infer_instance

/-- What is true of a socket whenever its lock is free. -/
structure Sound (s : TcpBaseSocket) : Prop where
  queued : s.Queued
  pending : s.msgbuffer2.pos ≤ E_MAX_BUFFER_SIZE

theorem sound_init : init.Sound := ⟨queued_init, by decide⟩

variable {s : TcpBaseSocket}

theorem Sound.closeSocket (h : s.Sound) : s.closeSocket.Sound :=
  ⟨queued_closeSocket h.queued.sane1 h.queued.sane2 h.queued.posted, by rw [closeSocket_msgbuffer2]; exact h.pending⟩

theorem Sound.written (h : s.Sound) {tranByte : Nat} (ht : s.InFlight tranByte) (error sendError : Bool) :
    (s.written tranByte error sendError).Sound :=
  ⟨(written_spec h.queued ht error sendError).1, written_pos h.pending tranByte error sendError⟩

theorem checkCanSend_iff (h : s.Sound) {n : Nat} (hn : n + hdrlen < 2 ^ 32) :
    checkCanSend32 s.writer (i32 ((n + hdrlen : Nat) : Int)) = true ↔ s.Accepts n := by
  rw [checkCanSend32_eq (w := s.writer) h.pending]
  simp only [checkCanSend, Bool.and_eq_true, decide_eq_true_eq]
  have hp := h.pending
  unfold Accepts
  show (((_ ∧ _) ∧ s.writer.started = true) ∧ _) ↔ _
  have hst : s.writer.started = true ↔ s.flag = .start := by simp [writer]
  have hpos : s.writer.msgbuffer2.pos = s.msgbuffer2.pos := rfl
  rw [hst, hpos]
  unfold i32 M_SOCKET_PACK_SIZE E_MAX_BUFFER_SIZE hdrlen at *
  constructor
  · rintro ⟨⟨⟨h0, h1⟩, hf⟩, h2⟩
    exact ⟨hf, by omega, by omega⟩
  · rintro ⟨hf, h1, h2⟩
    exact ⟨⟨⟨by omega, by omega⟩, hf⟩, by omega⟩

theorem sendPacket_of_accepts (h : s.Sound) {data : List UInt8} (ha : s.Accepts data.length) (error : Bool) :
    ∃ s', s.sendPacket data error = .ok (s', true) ∧ s'.Sound ∧ s'.unsent = s.unsent ++ packet data := by
  have hlen : data.length + hdrlen ≤ M_SOCKET_PACK_SIZE := ha.2.1
  have hpos := h.pending
  unfold M_SOCKET_PACK_SIZE E_MAX_BUFFER_SIZE at *
  have hc := (checkCanSend_iff h (by omega)).mpr ha
  rw [← SendCall.len_sendPacket] at hc
  obtain ⟨w', hw, hq⟩ := queued_of_checked (w := s.writer) hc (by
    rw [SendCall.len_sendPacket]
    show s.msgbuffer2.pos + _ < _
    omega)
  have hp := hw
  rw [perform_checked hc] at hp
  obtain ⟨mb, hmb, he⟩ := Except.bind_eq_ok.mp hp
  cases he
  obtain ⟨hsane, hrest⟩ := h.queued.sane2.foldlM_write hmb
  obtain ⟨hqueued, hu⟩ := trySendData_spec (s := { s with msgbuffer2 := mb }) h.queued.sane1 hsane h.queued.posted error
  refine ⟨_, by unfold sendPacket; rw [hw]; rfl, ⟨hqueued, trySendData_pos hq.pending error⟩, ?_⟩
  show (TcpBaseSocket.trySendData { s with msgbuffer2 := mb } error).1.unsent = _
  rw [hu]
  show s.msgbuffer1.rest ++ mb.rest = _
  rw [hrest, SendCall.pieces_sendPacket, u32_of_lt (by omega), ← List.append_assoc]
  simp [unsent, packet]

theorem sendPacket_of_refused (h : s.Sound) {data : List UInt8} (hl : data.length + hdrlen < 2 ^ 32)
    (ha : ¬ s.Accepts data.length) (error : Bool) : s.sendPacket data error = .ok (s, false) := by
  have hc : ¬ checkCanSend32 s.writer (i32 (SendCall.sendPacket data).len) = true := fun hc =>
    ha ((checkCanSend_iff h hl).mp hc)
  unfold sendPacket
  rw [perform_refused hc]
  rfl

end TcpBaseSocket

/-! ## The connections -/

/-- `NetIoHandler` with the socket of each descriptor. -/
structure Connections where
  nio : NetIoHandler
  socket : Int → TcpBaseSocket

/-- The frame and the body of a message, as they lie in the memory that a send is given. -/
structure Message where
  bytes : List UInt8
  frame : AppHeadFrame.size ≤ bytes.length
  length : bytes.length + hdrlen < 2 ^ 32

/-- A serialised body, which has less than 2 GB. -/
structure Body where
  data : List UInt8
  length : data.length < 2 ^ 31

namespace Connections

/-- `SendDataByFd`, with what the memory holds then and what it returns. -/
def sendDataByFd (c : Connections) (mem : List UInt8) (fd len : Int) (error : Bool) :
    Except Fault (Connections × List UInt8 × Bool) :=
  let out := c.nio.sendDataByFd mem fd 0 len
  match out.2 with
  | none => .ok (c, out.1, false)
  | some packet => do
    -- what `SendPacket` returns is not looked at
    let r ← (c.socket fd).sendPacket packet error
    .ok ({ c with socket := Function.update c.socket fd r.1 }, out.1, true)

/-- The frame that `RouterMgr::SendMsgByFd` makes. -/
def msgFrame (r : RouterMgr) (fd : Int) (msg : Msg) (body : Body) : AppHeadFrame :=
  (r.sendMsgByFd fd { msg with len := UInt32.ofNat body.data.length }).2

/-- `RouterMgr::SendMsgByFd` -/
def sendMsgByFd (c : Connections) (r : RouterMgr) (fd : Int) (msg : Msg) (body : Body) (error : Bool) :
    Except Fault (Connections × Int) := do
  let buffer ← Buffer.init.write (msgFrame r fd msg body).toBytes
  let buffer ← buffer.write body.data
  let sent ← c.sendDataByFd buffer.rest fd (i32 buffer.length) error
  .ok (sent.1, if sent.2.2 then 0 else -1)

/-- `RouterMgr::SendMsg`, which gives back what the transactions' functions return. -/
def sendMsg (c : Connections) (r : RouterMgr) (msg : Msg) (body : Body) (error : Bool) :
    Except Fault (Connections × Int) :=
  match r.routerInfoVec[msg.userid.toNat % r.routerInfoVec.length]? with
  | none => .ok (c, -1)
  | some fd => c.sendMsgByFd r fd msg body error

/-- There is a connection with the descriptor. -/
def Has (c : Connections) (fd : Int) : Prop :=
  if checkIsTcpFd fd then fd ∈ c.nio.tcpSocketContainer
  else checkIsTcpConnectorFd fd = true ∧ fd ∈ c.nio.tcpConnectorContainer

instance (c : Connections) (fd : Int) : Decidable (c.Has fd) := by unfold Has; infer_instance

/-- A packet has been appended to what one connection sends, and nothing to the others. -/
structure Appended (c : Connections) (fd : Int) (payload : List UInt8) (c' : Connections) : Prop where
  has : c.Has fd
  stream : (c'.socket fd).unsent = (c.socket fd).unsent ++ packet payload
  others : ∀ fd', fd' ≠ fd → c'.socket fd' = c.socket fd'

/-- The frame in network order and the body. -/
def framed (mem : List UInt8) : List UInt8 :=
  (AppHeadFrame.ofBytes mem).h2n.toBytes ++ mem.drop AppHeadFrame.size

/-- If there is a connection with the descriptor, it accepts `n` bytes. -/
def Accepts (c : Connections) (fd : Int) (n : Nat) : Prop := c.Has fd → (c.socket fd).Accepts n

/-- `SendDataByFd` says that a message is sent only if it has been appended, and otherwise has appended nothing; the
memory is as it was. -/
def SendsData (c : Connections) (m : Message) (fd : Int) (error : Bool) : Prop :=
  ∃ c' ret, c.sendDataByFd m.bytes fd (i32 m.bytes.length) error = .ok (c', m.bytes, ret) ∧
    (ret = true → c.Appended fd (framed m.bytes) c') ∧ (ret = false → c' = c)

/-- And so does `SendMsgByFd`. -/
def SendsMsg (c : Connections) (r : RouterMgr) (fd : Int) (msg : Msg) (body : Body) (error : Bool) : Prop :=
  ∃ c' ret, c.sendMsgByFd r fd msg body error = .ok (c', ret) ∧
    (ret = 0 → c.Appended fd ((msgFrame r fd msg body).h2n.toBytes ++ body.data) c') ∧ (ret ≠ 0 → c' = c)

/-- And so does `SendMsg`, to one of the routers. -/
def SendsToRouter (c : Connections) (r : RouterMgr) (msg : Msg) (body : Body) (error : Bool) : Prop :=
  ∃ c' ret, c.sendMsg r msg body error = .ok (c', ret) ∧
    (ret = 0 → ∃ fd ∈ r.routerInfoVec, c.Appended fd ((msgFrame r fd msg body).h2n.toBytes ++ body.data) c') ∧
    (ret ≠ 0 → c' = c)

/-- What is true of the connections between two steps. -/
def Sound (c : Connections) : Prop := ∀ fd, (c.socket fd).Sound

variable {c : Connections} {fd : Int} {error : Bool}

theorem framed_length {mem : List UInt8} (h : AppHeadFrame.size ≤ mem.length) : (framed mem).length = mem.length := by
  unfold framed
  rw [List.length_append, AppHeadFrame.length_toBytes, List.length_drop]
  omega

theorem framed_append (f : AppHeadFrame) (data : List UInt8) : framed (f.toBytes ++ data) = f.h2n.toBytes ++ data := by
  unfold framed
  rw [AppHeadFrame.ofBytes_toBytes, List.drop_left' (AppHeadFrame.length_toBytes f)]

theorem handed_eq (c : Connections) (m : Message) (fd : Int) :
    (c.nio.sendDataByFd m.bytes fd 0 (i32 m.bytes.length)).2 = if c.Has fd then some (framed m.bytes) else none := by
  have hl := m.length
  have hlen : (i32 (m.bytes.length : Int) % 2 ^ 32).toNat = m.bytes.length := by
    unfold i32
    omega
  simp only [NetIoHandler.sendDataByFd, List.drop_zero]
  rw [hlen, write_toBytes, List.take_of_length_le (by rw [← framed, framed_length m.frame]), ← framed]
  unfold Has
  by_cases ht : checkIsTcpFd fd = true
  · rw [if_pos ht]
    simp only [if_pos ht]
  · rw [if_neg ht]
    simp only [if_neg ht]
    by_cases hc : checkIsTcpConnectorFd fd = true <;> simp [hc]

theorem sendDataByFd_none (m : Message) (h : ¬ c.Has fd) :
    c.sendDataByFd m.bytes fd (i32 m.bytes.length) error = .ok (c, m.bytes, false) := by
  unfold sendDataByFd
  simp only
  rw [handed_eq, if_neg h, sendDataByFd_mem c.nio m.frame]

theorem sendDataByFd_has (m : Message) (h : c.Has fd) {r : TcpBaseSocket × Bool}
    (hs : (c.socket fd).sendPacket (framed m.bytes) error = .ok r) :
    c.sendDataByFd m.bytes fd (i32 m.bytes.length) error =
      .ok ({ c with socket := Function.update c.socket fd r.1 }, m.bytes, true) := by
  unfold sendDataByFd
  simp only
  rw [handed_eq, if_pos h, sendDataByFd_mem c.nio m.frame]
  simp only [hs]
  rfl

theorem sendDataByFd_of_accepts (error : Bool) (hc : c.Sound) (m : Message) (h : c.Has fd)
    (ha : (c.socket fd).Accepts m.bytes.length) : ∃ c',
    c.sendDataByFd m.bytes fd (i32 m.bytes.length) error = .ok (c', m.bytes, true) ∧ c'.Sound ∧
      c.Appended fd (framed m.bytes) c' := by
  rw [← framed_length m.frame] at ha
  obtain ⟨s', hs, hsound, hu⟩ := TcpBaseSocket.sendPacket_of_accepts (hc fd) ha error
  refine ⟨_, sendDataByFd_has m h hs, fun fd' => ?_, h, ?_, fun fd' hne => Function.update_of_ne hne _ _⟩
  · show (Function.update c.socket fd s' fd').Sound
    by_cases he : fd' = fd
    · rw [he, Function.update_self]
      exact hsound
    · rw [Function.update_of_ne he]
      exact hc fd'
  · show (Function.update c.socket fd s' fd).unsent = _
    rw [Function.update_self, hu]

theorem sendDataByFd_of_refused (hc : c.Sound) (m : Message) (h : c.Has fd)
    (ha : ¬ (c.socket fd).Accepts m.bytes.length) :
    c.sendDataByFd m.bytes fd (i32 m.bytes.length) error = .ok (c, m.bytes, true) := by
  have hl := m.length
  rw [← framed_length m.frame] at ha hl
  have hs := TcpBaseSocket.sendPacket_of_refused (hc fd) hl ha error
  rw [sendDataByFd_has m h hs, Function.update_eq_self]

theorem not_appended_self (payload : List UInt8) : ¬ c.Appended fd payload c := by
  intro h
  have hs := congrArg List.length h.stream
  rw [List.length_append, length_packet] at hs
  unfold hdrlen at hs
  omega

theorem sendsData_iff (hc : c.Sound) (m : Message) (fd : Int) (error : Bool) :
    c.SendsData m fd error ↔ c.Accepts fd m.bytes.length := by
  constructor
  · rintro ⟨c', ret, hr, hs, -⟩ h
    by_contra ha
    rw [sendDataByFd_of_refused hc m h ha] at hr
    cases hr
    exact not_appended_self _ (hs rfl)
  · intro ha
    by_cases h : c.Has fd
    · obtain ⟨c', hr, -, happ⟩ := sendDataByFd_of_accepts error hc m h (ha h)
      exact ⟨c', true, hr, fun _ => happ, nofun⟩
    · exact ⟨c, false, sendDataByFd_none m h, nofun, fun _ => rfl⟩

/-! ## Messages -/

/-- The frame and the body as they lie in the buffer. -/
def buffered (r : RouterMgr) (fd : Int) (msg : Msg) (body : Body) : Message where
  bytes := (msgFrame r fd msg body).toBytes ++ body.data
  frame := by rw [List.length_append, AppHeadFrame.length_toBytes]; exact Nat.le_add_right _ _
  length := by
    have := body.length
    rw [List.length_append, AppHeadFrame.length_toBytes]
    unfold AppHeadFrame.size hdrlen
    omega

theorem sendMsgByFd_eq (c : Connections) (r : RouterMgr) (fd : Int) (msg : Msg) (body : Body) (error : Bool) :
    c.sendMsgByFd r fd msg body error = (do
      let sent ← c.sendDataByFd (buffered r fd msg body).bytes fd (i32 (buffered r fd msg body).bytes.length) error
      .ok (sent.1, if sent.2.2 then 0 else -1)) := by
  have hb := body.length
  have hf : (msgFrame r fd msg body).toBytes.length = 50 := AppHeadFrame.length_toBytes _
  obtain ⟨b, hw⟩ := Buffer.init.write_of_lt (msgFrame r fd msg body).toBytes (by rw [hf]; decide)
  obtain ⟨hs, hr, -⟩ := Buffer.sane_init.write hw
  have hd := (Buffer.write_eq_ok hw).1
  have hinit : Buffer.init.data = [] := rfl
  rw [hinit, List.nil_append] at hd
  obtain ⟨b', hw'⟩ := b.write_of_le body.data (by rw [hd, hf]; unfold M_BUFFER_DEFAILT_SIZE; omega)
  obtain ⟨hs', hr', -⟩ := hs.write hw'
  have hrest : b'.rest = (buffered r fd msg body).bytes := by
    rw [hr', hr]
    rfl
  unfold sendMsgByFd
  rw [hw, Except.ok_bind, hw', Except.ok_bind, hs'.length, hrest]

section
variable {r : RouterMgr} {msg : Msg} {body : Body} {c' : Connections} {ret : Bool}

theorem buffered_length (r : RouterMgr) (fd : Int) (msg : Msg) (body : Body) :
    (buffered r fd msg body).bytes.length = AppHeadFrame.size + body.data.length := by
  unfold buffered
  rw [List.length_append, AppHeadFrame.length_toBytes]

theorem framed_buffered : framed (buffered r fd msg body).bytes = (msgFrame r fd msg body).h2n.toBytes ++ body.data :=
  framed_append _ _

theorem sendMsgByFd_of_data (h : c.sendDataByFd (buffered r fd msg body).bytes fd
      (i32 (buffered r fd msg body).bytes.length) error = .ok (c', (buffered r fd msg body).bytes, ret)) :
    c.sendMsgByFd r fd msg body error = .ok (c', if ret then 0 else -1) := by
  rw [sendMsgByFd_eq, h]
  rfl

theorem sendsMsg_iff (hc : c.Sound) (r : RouterMgr) (fd : Int) (msg : Msg) (body : Body) (error : Bool) :
    c.SendsMsg r fd msg body error ↔ c.Accepts fd (AppHeadFrame.size + body.data.length) := by
  rw [← buffered_length r fd msg body]
  constructor
  · rintro ⟨c', ret, hr, hs, -⟩ h
    by_contra ha
    rw [sendMsgByFd_of_data (sendDataByFd_of_refused hc _ h ha)] at hr
    cases hr
    exact not_appended_self _ (hs rfl)
  · intro ha
    by_cases h : c.Has fd
    · obtain ⟨c', hr, -, happ⟩ := sendDataByFd_of_accepts error hc (buffered r fd msg body) h (ha h)
      rw [framed_buffered] at happ
      exact ⟨c', 0, sendMsgByFd_of_data hr, fun _ => happ, fun hne => absurd rfl hne⟩
    · exact ⟨c, -1, sendMsgByFd_of_data (sendDataByFd_none _ h), nofun, fun _ => rfl⟩

theorem sendsToRouter_iff (hc : c.Sound) (r : RouterMgr) (msg : Msg) (body : Body) (error : Bool) :
    c.SendsToRouter r msg body error ↔
      ∀ fd, r.routerInfoVec[msg.userid.toNat % r.routerInfoVec.length]? = some fd →
        c.Accepts fd (AppHeadFrame.size + body.data.length) := by
  unfold SendsToRouter sendMsg
  cases hfd : r.routerInfoVec[msg.userid.toNat % r.routerInfoVec.length]? with
  | none => exact iff_of_true ⟨c, -1, rfl, nofun, fun _ => rfl⟩ nofun
  | some fd =>
    have hmem := List.mem_of_getElem? hfd
    constructor
    · rintro ⟨c', ret, hr, hs, -⟩ fd' he h
      cases he
      by_contra ha
      rw [← buffered_length r fd msg body] at ha
      simp only at hr
      rw [sendMsgByFd_of_data (sendDataByFd_of_refused hc _ h ha)] at hr
      cases hr
      obtain ⟨fd', -, happ⟩ := hs rfl
      exact not_appended_self _ happ
    · intro ha
      obtain ⟨c', ret, hr, hs, hn⟩ := (sendsMsg_iff hc r fd msg body error).mpr (ha fd rfl)
      exact ⟨c', ret, hr, fun h0 => ⟨fd, hmem, hs h0⟩, hn⟩

end

/-! ## Runs -/

/-- No connection; a socket is as it is when it has been connected. -/
def init : Connections := { nio := { tcpSocketContainer := [], tcpConnectorContainer := [] }, socket := fun _ => .init }

def add (c : Connections) (fd : Int) : Connections where
  nio :=
    if checkIsTcpFd fd then { c.nio with tcpSocketContainer := fd :: c.nio.tcpSocketContainer }
    else { c.nio with tcpConnectorContainer := fd :: c.nio.tcpConnectorContainer }
  socket := Function.update c.socket fd .init

theorem add_socket (c : Connections) (fd : Int) : (c.add fd).socket = Function.update c.socket fd .init := rfl

def remove (c : Connections) (fd : Int) : NetIoHandler where
  tcpSocketContainer := c.nio.tcpSocketContainer.filter fun fd' => fd' ≠ fd
  tcpConnectorContainer := c.nio.tcpConnectorContainer.filter fun fd' => fd' ≠ fd

inductive Event where
  /-- a connection comes into its table -/
  | connected (fd : Int)
  | sendData (m : Message) (fd : Int) (error : Bool)
  | written (fd : Int) (tranByte : Nat) (error sendError : Bool)
  | close (fd : Int)
  /-- the entry of a descriptor is erased -/
  | disconnected (fd : Int)

def step (c : Connections) : Event → Except Fault Connections
  | .connected fd => .ok (if c.Has fd then c else c.add fd)
  | .sendData m fd error => (c.sendDataByFd m.bytes fd (i32 m.bytes.length) error).map fun out => out.1
  | .written fd tranByte error sendError =>
    .ok { c with socket := Function.update c.socket fd ((c.socket fd).written tranByte error sendError) }
  | .close fd => .ok { c with socket := Function.update c.socket fd (c.socket fd).closeSocket }
  | .disconnected fd => .ok { c with nio := c.remove fd }

/-- A completion is that of a write that has been posted, and of no more bytes than it has. -/
def Possible (c : Connections) : Event → Prop
  | .written fd tranByte _ _ => (c.socket fd).InFlight tranByte
  | _ => True

def Run : List Event → Connections → Prop :=
  Runs.Run (fun c e c' => c.step e = .ok c') (fun _ c e => c.Possible e) init

theorem Sound.update (hc : c.Sound) {s : TcpBaseSocket} (hs : s.Sound) (nio : NetIoHandler) :
    Sound { nio, socket := Function.update c.socket fd s } := by
  intro fd'
  show (Function.update c.socket fd s fd').Sound
  by_cases he : fd' = fd
  · rw [he, Function.update_self]
    exact hs
  · rw [Function.update_of_ne he]
    exact hc fd'

theorem Sound.sendData (hc : c.Sound) (m : Message) (fd : Int) (error : Bool) : ∃ c' ret,
    c.sendDataByFd m.bytes fd (i32 m.bytes.length) error = .ok (c', m.bytes, ret) ∧ c'.Sound := by
  by_cases h : c.Has fd
  · by_cases ha : (c.socket fd).Accepts m.bytes.length
    · obtain ⟨c', hr, hs, -⟩ := sendDataByFd_of_accepts error hc m h ha
      exact ⟨c', true, hr, hs⟩
    · exact ⟨c, true, sendDataByFd_of_refused hc m h ha, hc⟩
  · exact ⟨c, false, sendDataByFd_none m h, hc⟩

theorem step_sendData (c : Connections) (m : Message) (fd : Int) (error : Bool) : c.step (.sendData m fd error) =
    (c.sendDataByFd m.bytes fd (i32 m.bytes.length) error).map fun out => out.1 := rfl

theorem Sound.step (hc : c.Sound) {e : Event} (hp : c.Possible e) {c' : Connections} (h : c.step e = .ok c') :
    c'.Sound := by
  cases e with
  | connected fd =>
    cases h
    split
    · exact hc
    · exact hc.update TcpBaseSocket.sound_init _
  | sendData m fd error =>
    obtain ⟨c₁, ret, hr, hs⟩ := hc.sendData m fd error
    rw [step_sendData, hr] at h
    cases h
    exact hs
  | written fd tranByte error sendError =>
    cases h
    exact hc.update ((hc fd).written hp error sendError) _
  | close fd =>
    cases h
    exact hc.update (hc fd).closeSocket _
  | disconnected fd =>
    cases h
    exact hc

theorem sound_run {t : List Event} (h : Run t c) : c.Sound :=
  h.invariant (fun _ c => c.Sound) (fun _ => TcpBaseSocket.sound_init) fun _ _ _ _ _ hc hp hs => hc.step hp hs

/-- A message is queued whenever it is said to be sent exactly if a connection that there is for it accepts it, be it
sent by its descriptor or to a router. -/
theorem sends_iff {t : List Event} (h : Run t c) :
    (∀ m fd error, c.SendsData m fd error ↔ c.Accepts fd m.bytes.length) ∧
      (∀ r fd msg body error, c.SendsMsg r fd msg body error ↔ c.Accepts fd (AppHeadFrame.size + body.data.length)) ∧
      ∀ r msg body error, c.SendsToRouter r msg body error ↔
        ∀ fd, r.routerInfoVec[msg.userid.toNat % r.routerInfoVec.length]? = some fd →
          c.Accepts fd (AppHeadFrame.size + body.data.length) :=
  ⟨sendsData_iff (sound_run h), sendsMsg_iff (sound_run h), sendsToRouter_iff (sound_run h)⟩

def headOnly : Message where
  bytes := AppHeadFrame.toBytes { cmd := 7 }
  frame := by rw [AppHeadFrame.length_toBytes]
  length := by rw [AppHeadFrame.length_toBytes]; decide

theorem run_connected (fd : Int) : Run [.connected fd] (init.add fd) := by
  have hn : ¬ init.Has fd := by simp [Has, init]
  exact Runs.Run.nil.snoc trivial (congrArg Except.ok (if_neg hn))

theorem init_accepts : TcpBaseSocket.init.Accepts headOnly.bytes.length := by
  unfold headOnly
  rw [AppHeadFrame.length_toBytes]
  decide

/-- A frame is sent over a connection. -/
theorem headOnly_sent : (init.add (2 ^ 34)).SendsData headOnly (2 ^ 34) false := by
  refine ((sends_iff (run_connected (2 ^ 34))).1 headOnly (2 ^ 34) false).mpr fun _ => ?_
  rw [add_socket, Function.update_self]
  exact init_accepts

/-- The connection is closed, and still in its table. -/
def closed : Connections :=
  { init.add (2 ^ 34) with socket := Function.update (init.add (2 ^ 34)).socket (2 ^ 34) TcpBaseSocket.init.closeSocket }

theorem closed_socket :
    closed.socket = Function.update (init.add (2 ^ 34)).socket (2 ^ 34) TcpBaseSocket.init.closeSocket := rfl

theorem run_closed : Run [.connected (2 ^ 34), .close (2 ^ 34)] closed :=
  Runs.Run.snoc (run_connected (2 ^ 34)) trivial rfl

/-- Then the frame is said to be sent and is not. -/
theorem closed_not_sent : ¬ closed.SendsData headOnly (2 ^ 34) false := by
  have ha : ¬ (closed.socket (2 ^ 34)).Accepts headOnly.bytes.length := by
    rw [closed_socket, Function.update_self]
    exact fun ha => TcpBaseSocket.closeSocket_flag _ ha.1
  rintro ⟨c', ret, hr, hs, -⟩
  rw [sendDataByFd_of_refused (sound_run run_closed) headOnly (by decide) ha] at hr
  cases hr
  exact not_appended_self _ (hs rfl)

end Connections

end GlobalServer
