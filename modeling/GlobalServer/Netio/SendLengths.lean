import GlobalServer.Netio.TcpBaseSocket

/-!
# The lengths of a send

A length goes into `SendPacket` or `Send` as an unsigned 32-bit word, is added
to the sizes of the headers as a `size_t`, is cut to the `int` that
`_CheckCanSend` takes, and is added there to `Size()` in 32 bits. The check
looks at the sum that has been cut, and what is written is the whole payload.
-/

namespace GlobalServer

open Bytes PacketHeader

/-- `_CheckCanSend`, with `Size() + len` in 32 bits. -/
def checkCanSend32 (w : Writer) (len : Int) : Bool :=
  0 < len && len ≤ M_SOCKET_PACK_SIZE && w.started && u32 (w.msgbuffer2.pos + len.toNat) ≤ E_MAX_BUFFER_SIZE

/-- The check of a length and then the writes, up to `_TrySendData`. -/
def queuePieces (w : Writer) (len : Nat) (pieces : List (List UInt8)) : Except Fault (Writer × Bool) :=
  if checkCanSend32 w (i32 len) then do
    let mb ← pieces.foldlM Buffer.write w.msgbuffer2
    .ok ({ w with msgbuffer2 := mb }, true)
  else .ok (w, false)

/-- The calls that queue bytes. -/
inductive SendCall where
  /-- `TcpBaseSocket::Send` -/
  | send (data : List UInt8)
  | sendPacket (data : List UInt8)
  /-- the overload of `SendPacket` with a head of its own -/
  | sendPacketHead (head data : List UInt8)
  deriving DecidableEq

namespace SendCall

/-- The header in front, if the call sends one; its size field has 32 bits. -/
def header : SendCall → Option PacketHeader
  | send _ => none
  | sendPacket data => some (packetHeader (u32 data.length))
  | sendPacketHead head data => some (packetHeader (u32 (data.length + head.length)))

/-- The bytes behind the header. -/
def payload : SendCall → List UInt8
  | send data => data
  | sendPacket data => data
  | sendPacketHead head data => head ++ data

/-- What the call passes to `_CheckCanSend`, before it is cut to an `int`. -/
def len : SendCall → Nat
  | send data => data.length
  | sendPacket data => data.length + hdrlen
  | sendPacketHead head data => data.length + hdrlen + head.length

@[simp] theorem len_send (data : List UInt8) : (send data).len = data.length := rfl

@[simp] theorem len_sendPacket (data : List UInt8) : (sendPacket data).len = data.length + hdrlen := rfl

@[simp] theorem len_sendPacketHead (head data : List UInt8) :
    (sendPacketHead head data).len = data.length + hdrlen + head.length := rfl

/-- What the call writes, one piece after another. -/
def pieces : SendCall → List (List UInt8)
  | send data => [data]
  | sendPacket data => [(packetHeader (u32 data.length)).h2n.toBytes, data]
  | sendPacketHead head data => [(packetHeader (u32 (data.length + head.length))).h2n.toBytes, head, data]

@[simp] theorem pieces_send (data : List UInt8) : (send data).pieces = [data] := rfl

@[simp] theorem pieces_sendPacket (data : List UInt8) :
    (sendPacket data).pieces = [(packetHeader (u32 data.length)).h2n.toBytes, data] := rfl

def perform (w : Writer) (c : SendCall) : Except Fault (Writer × Bool) := queuePieces w c.len c.pieces

def headerBytes (c : SendCall) : List UInt8 := (c.header.map fun h => h.h2n.toBytes).getD []

theorem flatten_pieces (c : SendCall) : c.pieces.flatten = c.headerBytes ++ c.payload := by
  cases c <;> simp [pieces, headerBytes, header, payload]

theorem length_pieces (c : SendCall) : c.pieces.flatten.length = c.len := by
  cases c with
  | send data => simp [pieces, len]
  | sendPacket data => simp [pieces, len, hdrlen, Nat.add_comm]
  | sendPacketHead head data => simp [pieces, len, hdrlen]; omega

end SendCall

/-- What an accepted call has done. -/
structure PacketQueued (w : Writer) (c : SendCall) (w' : Writer) : Prop where
  /-- the header and the payload are behind what was there -/
  bytes : w'.msgbuffer2.data = w.msgbuffer2.data ++ c.headerBytes ++ c.payload
  /-- the size field counts the payload -/
  size : ∀ h ∈ c.header, h.size = c.payload.length
  packet : c.headerBytes.length + c.payload.length ≤ M_SOCKET_PACK_SIZE
  pending : w'.msgbuffer2.pos ≤ E_MAX_BUFFER_SIZE
  /-- the conversion to `int` and the sum with `Size()` are exact -/
  checked : i32 c.len = c.len ∧ w.msgbuffer2.pos + c.len < 2 ^ 32
  /-- and so is the size of the block at each write -/
  block : ∀ n ≤ c.len, M_BUFFER_DEFAILT_SIZE * ((w.msgbuffer2.pos + n) / M_BUFFER_DEFAILT_SIZE + 1) < 2 ^ 32

/-- An accepted call has queued its packet, a refused one nothing. -/
def SendOk (w : Writer) (c : SendCall) : Prop :=
  ∃ w' ok, c.perform w = .ok (w', ok) ∧ (ok = true → PacketQueued w c w') ∧ (ok = false → w' = w)

/-! ## Writing the pieces -/

theorem foldlM_write : ∀ (pieces : List (List UInt8)) (b : Buffer),
    b.data.length + pieces.flatten.length < 2 ^ 32 - M_BUFFER_DEFAILT_SIZE →
    ∃ b', pieces.foldlM Buffer.write b = .ok b' ∧ b'.data = b.data ++ pieces.flatten
  | [], b, _ => ⟨b, rfl, by simp⟩
  | p :: pieces, b, h => by
    rw [List.flatten_cons, List.length_append] at h
    obtain ⟨b₁, h₁⟩ := b.write_of_le p (by omega)
    have hd := (Buffer.write_eq_ok h₁).1
    obtain ⟨b', h₂, hd'⟩ := foldlM_write pieces b₁ (by rw [hd, List.length_append]; omega)
    refine ⟨b', ?_, ?_⟩
    · rw [List.foldlM_cons, h₁, Except.ok_bind, h₂]
    · rw [hd', hd, List.flatten_cons, List.append_assoc]

theorem i32_eq_self {n : Nat} (h0 : 0 < i32 n) (hn : n < 2 ^ 32) : i32 n = n := by
  unfold i32 at *
  omega

section
variable {w : Writer} {c : SendCall}

theorem perform_checked (hc : checkCanSend32 w (i32 c.len) = true) :
    c.perform w = (do
      let mb ← c.pieces.foldlM Buffer.write w.msgbuffer2
      .ok ({ w with msgbuffer2 := mb }, true)) := by
  unfold SendCall.perform queuePieces
  rw [if_pos hc]

theorem perform_refused (hc : ¬ checkCanSend32 w (i32 c.len) = true) : c.perform w = .ok (w, false) := by
  unfold SendCall.perform queuePieces
  rw [if_neg hc]

theorem queued_of_checked (hc : checkCanSend32 w (i32 c.len) = true)
    (hlt : w.msgbuffer2.pos + c.len < 2 ^ 32) :
    ∃ w', c.perform w = .ok (w', true) ∧ PacketQueued w c w' := by
  have hchk := hc
  simp only [checkCanSend32, Bool.and_eq_true, decide_eq_true_eq] at hchk
  obtain ⟨⟨⟨h0, hM⟩, -⟩, hE⟩ := hchk
  have hi := i32_eq_self h0 (Nat.lt_of_le_of_lt (Nat.le_add_left _ _) hlt)
  rw [hi] at hM hE
  rw [Int.toNat_natCast, u32_of_lt hlt] at hE
  have hM' : c.len ≤ M_SOCKET_PACK_SIZE := by exact_mod_cast hM
  have hl := c.length_pieces
  unfold Buffer.pos E_MAX_BUFFER_SIZE at hE
  obtain ⟨mb, hw, hd⟩ := foldlM_write c.pieces w.msgbuffer2 (by
    rw [hl]; unfold M_BUFFER_DEFAILT_SIZE; omega)
  have hsum : c.headerBytes.length + c.payload.length = c.len := by
    rw [← hl, c.flatten_pieces, List.length_append]
  refine ⟨{ w with msgbuffer2 := mb }, ?_, ?_, ?_, ?_, ?_, ⟨hi, hlt⟩, ?_⟩
  · rw [perform_checked hc, hw]
    rfl
  · rw [hd, c.flatten_pieces, List.append_assoc]
  · intro h hh
    cases c with
    | send data => cases hh
    | sendPacket data =>
      cases hh
      rw [SendCall.len_sendPacket] at hlt
      exact u32_of_lt (by omega)
    | sendPacketHead head data =>
      cases hh
      rw [SendCall.len_sendPacketHead] at hlt
      rw [SendCall.payload, List.length_append, Nat.add_comm head.length]
      exact u32_of_lt (by omega)
  · rw [hsum]
    exact hM'
  · show mb.data.length ≤ E_MAX_BUFFER_SIZE
    rw [hd, List.length_append, hl]
    exact hE
  · intro n hn
    unfold Buffer.pos M_BUFFER_DEFAILT_SIZE
    omega

end

/-- A call does what it should exactly when `_CheckCanSend` refuses the length it is given, or that length and the
bytes pending come to less than 2^32. -/
theorem sendOk_iff (w : Writer) (c : SendCall) :
    SendOk w c ↔ (checkCanSend32 w (i32 c.len) = true → w.msgbuffer2.pos + c.len < 2 ^ 32) := by
  constructor
  · intro h hc
    obtain ⟨w', ok, hp, hq, -⟩ := h
    rw [perform_checked hc] at hp
    obtain ⟨mb, hw, hr⟩ := Except.bind_eq_ok.mp hp
    cases hr
    exact (hq rfl).checked.2
  · intro h
    by_cases hc : checkCanSend32 w (i32 c.len) = true
    · obtain ⟨w', hp, hq⟩ := queued_of_checked hc (h hc)
      exact ⟨w', true, hp, fun _ => hq, nofun⟩
    · exact ⟨w, false, perform_refused hc, nofun, fun _ => rfl⟩

/-- From 2^32 - 7 bytes on the sum with the header is cut to one that is accepted, and all the bytes are written. -/
theorem not_sendOk_of_cut {data : List UInt8} (h1 : 2 ^ 32 - hdrlen < data.length) (h2 : data.length < 2 ^ 32) :
    ¬ SendOk ⟨true, Buffer.init⟩ (.sendPacket data) := by
  unfold hdrlen at h1
  have hi : i32 (SendCall.sendPacket data).len = data.length - (2 ^ 32 - 8) := by
    unfold i32
    rw [SendCall.len_sendPacket, hdrlen]
    omega
  have hlen : (SendCall.sendPacket data).len = data.length + 8 := rfl
  rw [sendOk_iff, hi, hlen]
  intro hlt
  have hc : checkCanSend32 ⟨true, Buffer.init⟩ (data.length - (2 ^ 32 - 8)) = true := by
    have hs : u32 (Buffer.init.pos + ((data.length : Int) - (2 ^ 32 - 8)).toNat) ≤ E_MAX_BUFFER_SIZE := by
      have hpos : Buffer.init.pos = 0 := rfl
      unfold u32 E_MAX_BUFFER_SIZE
      omega
    simp only [checkCanSend32, Bool.and_eq_true, decide_eq_true_eq]
    refine ⟨⟨⟨by omega, by unfold M_SOCKET_PACK_SIZE; omega⟩, trivial⟩, hs⟩
  have hsum := hlt hc
  omega

/-- 2^32 - 1 bytes are taken for 7. -/
theorem sendOk_not : ¬ SendOk ⟨true, Buffer.init⟩ (.sendPacket (List.replicate (2 ^ 32 - 1) 65)) :=
  not_sendOk_of_cut (by rw [List.length_replicate]; decide) (by rw [List.length_replicate]; decide)

/-! ## The lengths that occur -/

theorem sendOk_of_pending {w : Writer} (hw : w.msgbuffer2.pos ≤ E_MAX_BUFFER_SIZE) {c : SendCall}
    (hl : c.len < 2 ^ 32) : SendOk w c := by
  rw [sendOk_iff]
  intro hc
  simp only [checkCanSend32, Bool.and_eq_true, decide_eq_true_eq] at hc
  have h0 := hc.1.1.1
  unfold E_MAX_BUFFER_SIZE at hw
  unfold i32 at h0
  omega

theorem checkCanSend32_eq {w : Writer} (hw : w.msgbuffer2.pos ≤ E_MAX_BUFFER_SIZE) (len : Int) :
    checkCanSend32 w len = checkCanSend w len := by
  unfold checkCanSend32 checkCanSend
  by_cases h0 : 0 < len
  · by_cases hM : len ≤ M_SOCKET_PACK_SIZE
    · unfold E_MAX_BUFFER_SIZE at hw
      unfold M_SOCKET_PACK_SIZE at hM
      have hs : u32 (w.msgbuffer2.pos + len.toNat) = w.msgbuffer2.pos + len.toNat := u32_of_lt (by omega)
      rw [hs]
      congr 1
      apply decide_eq_decide.mpr
      omega
    · simp [hM]
  · simp [h0]

theorem perform_sendPacket {w : Writer} (hw : w.msgbuffer2.pos ≤ E_MAX_BUFFER_SIZE) {data : List UInt8}
    (hl : data.length < 2 ^ 32) : (SendCall.sendPacket data).perform w = GlobalServer.sendPacket w data := by
  unfold SendCall.perform queuePieces GlobalServer.sendPacket
  rw [checkCanSend32_eq hw, SendCall.len_sendPacket, SendCall.pieces_sendPacket, u32_of_lt hl, Nat.cast_add]
  simp only [List.foldlM_cons, List.foldlM_nil, bind_assoc]
  rfl

namespace TcpBaseSocket

/-- The state that the sends of a socket look at. -/
def writer (s : TcpBaseSocket) : Writer := { started := s.flag = .start, msgbuffer2 := s.msgbuffer2 }

theorem send_eq {s : TcpBaseSocket} (hw : s.msgbuffer2.pos ≤ E_MAX_BUFFER_SIZE) (data : List UInt8) (error : Bool) :
    s.send data error = (do
      let r ← (SendCall.send data).perform s.writer
      .ok (if r.2 then ({ s with msgbuffer2 := r.1.msgbuffer2 }.trySendData error).1 else s, r.2)) := by
  unfold send SendCall.perform queuePieces
  rw [checkCanSend32_eq (w := s.writer) hw, SendCall.len_send, SendCall.pieces_send]
  show (if checkCanSend s.writer _ = true then _ else _) = _
  by_cases hc : checkCanSend s.writer (i32 data.length) = true
  · rw [if_pos hc, if_pos hc]
    simp only [List.foldlM_cons, List.foldlM_nil, bind_assoc]
    rfl
  · rw [if_neg hc, if_neg hc]
    rfl

theorem trySendData_pos {s : TcpBaseSocket} (h : s.msgbuffer2.pos ≤ E_MAX_BUFFER_SIZE) (error : Bool) :
    (s.trySendData error).1.msgbuffer2.pos ≤ E_MAX_BUFFER_SIZE := by
  have hs : s.swapBuffers.msgbuffer2.pos ≤ E_MAX_BUFFER_SIZE := by
    unfold swapBuffers
    split
    · exact Nat.zero_le _
    · exact h
  unfold trySendData
  split
  · exact h
  · split
    · split
      · simpa using hs
      · exact hs
    · exact hs

theorem written_pos {s : TcpBaseSocket} (hw : s.msgbuffer2.pos ≤ E_MAX_BUFFER_SIZE) (tranByte : Nat)
    (error sendError : Bool) : (s.written tranByte error sendError).msgbuffer2.pos ≤ E_MAX_BUFFER_SIZE := by
  have ht := trySendData_pos
    (s := { s with posted := s.posted.tail, writing := false, msgbuffer1 := s.msgbuffer1.cutData tranByte }) hw sendError
  unfold written writeHandler
  simp only
  split
  · simpa using hw
  · split
    · simpa using hw
    · split
      · simpa using ht
      · exact ht

end TcpBaseSocket

namespace Sending

theorem send_pos {s s' : TcpBaseSocket} {data : List UInt8} {error ok : Bool} (hl : data.length < 2 ^ 32)
    (hw : s.msgbuffer2.pos ≤ E_MAX_BUFFER_SIZE) (h : s.send data error = .ok (s', ok)) :
    s'.msgbuffer2.pos ≤ E_MAX_BUFFER_SIZE := by
  obtain ⟨w', ok', hp, hq, -⟩ := sendOk_of_pending (w := s.writer) hw (c := .send data) hl
  rw [TcpBaseSocket.send_eq hw, hp, Except.ok_bind] at h
  cases ok' with
  | true =>
    cases h
    exact TcpBaseSocket.trySendData_pos (s := { s with msgbuffer2 := w'.msgbuffer2 }) (hq rfl).pending error
  | false =>
    cases h
    exact hw

theorem run_pending {t : List SocketEvent} {s : Sending} (h : Run t s) :
    s.socket.msgbuffer2.pos ≤ E_MAX_BUFFER_SIZE := by
  refine Runs.Run.invariant (fun _ s => s.socket.msgbuffer2.pos ≤ E_MAX_BUFFER_SIZE) (Nat.zero_le _) ?_ h
  intro t s e s' _ hw hp hs
  cases e with
  | send data error =>
    obtain ⟨⟨socket, ok⟩, hout, hs⟩ := Except.bind_eq_ok.mp hs
    cases hs
    exact send_pos hp hw hout
  | written tranByte error sendError =>
    cases hs
    exact TcpBaseSocket.written_pos hw tranByte error sendError
  | close =>
    cases hs
    simpa using hw

end Sending

end GlobalServer
