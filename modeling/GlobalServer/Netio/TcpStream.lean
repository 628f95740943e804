import GlobalServer.Base.Buffer
import GlobalServer.Netio.Packet

/-!
# Packets over a TCP stream: `TcpStreamSocket`

`SendPacket` frames a payload and `_CutMsgPack` cuts the payloads out of the
bytes of successive reads. A packet that lies inside one read is handed over
from the read buffer; the rest of a read is kept in `msgbuffer`.

Offsets stand for pointers into the read buffer, and the header is converted
in place there as the source does it.
-/

namespace GlobalServer

open Bytes PacketHeader

/-- `_readerinfo_` -/
structure Reader where
  /-- a block of `M_SOCKET_READ_SIZE` bytes -/
  readbuf : List UInt8
  msgbuffer : Buffer
  deriving DecidableEq

namespace Reader

def init : Reader := { readbuf := List.replicate M_SOCKET_READ_SIZE 0, msgbuffer := Buffer.init }

/-- The socket puts the bytes of one read at the front of `readbuf`. -/
def recv (r : Reader) (bytes : List UInt8) : Reader := { r with readbuf := write r.readbuf 0 bytes }

end Reader

/-- What one turn of the loop of `_CutMsgPack` comes to. -/
inductive Cut where
  /-- `break`: wait for the next read -/
  | brk (r : Reader)
  /-- `return false` -/
  | fail (r : Reader)
  /-- `OnReceiveData`, then another turn at `buf` with `tran` bytes left -/
  | deliver (r : Reader) (buf tran : Nat) (data : List UInt8)

/-- The common end of a turn: the size check, `OnReceiveData` and `Clear`. -/
def handOver (r : Reader) (buf tran datalen : Nat) (data : Except Fault (List UInt8)) : Except Fault Cut :=
  if M_SOCKET_PACK_SIZE < datalen then .ok (.fail r)
  else do
    let d ← data
    .ok (.deliver { r with msgbuffer := r.msgbuffer.clear } buf tran d)

/-- Keep `len` bytes from `buf` on. -/
def keep (r : Reader) (buf len : Nat) : Except Fault Reader := do
  let bs ← read r.readbuf buf len
  let mb ← r.msgbuffer.write bs
  .ok { r with msgbuffer := mb }

/-- A turn with nothing in `msgbuffer`. -/
def cutFast (r : Reader) (buf tran : Nat) : Except Fault Cut :=
  if tran < hdrlen then do
    let r ← keep r buf tran
    .ok (.brk r)
  else do
    let bs ← read r.readbuf buf hdrlen
    let header := (ofBytes bs).n2h
    let readbuf := write r.readbuf buf header.toBytes
    if tran - hdrlen < header.size then do
      let r ← keep { r with readbuf := write readbuf buf header.h2n.toBytes } buf tran
      .ok (.brk r)
    else if header.timestamp ≠ M_PACGET_CODE then .ok (.fail { r with readbuf })
    else
      handOver { r with readbuf } (buf + (hdrlen + header.size)) (tran - (hdrlen + header.size)) header.size
        (read readbuf (buf + hdrlen) header.size)

/-- `msgbuffer` once its header is complete, and what is left of the read. -/
def fillHeader (r : Reader) (buf tran : Nat) : Except Fault (Reader × Nat × Nat) :=
  let bufLen := r.msgbuffer.length
  if bufLen < hdrlen then do
    let r ← keep r buf (hdrlen - bufLen)
    .ok (r, buf + (hdrlen - bufLen), sub32 tran (hdrlen - bufLen))
  else .ok (r, buf, tran)

/-- The bytes at `msgbuffer.Data()`. -/
def msgData (r : Reader) : List UInt8 := r.msgbuffer.data.drop r.msgbuffer.offset

/-- Overwrite the header at `msgbuffer.Data()`. -/
def setMsgHeader (r : Reader) (h : PacketHeader) : Reader :=
  { r with msgbuffer := { r.msgbuffer with data := write r.msgbuffer.data r.msgbuffer.offset h.toBytes } }

/-- The slow path once `msgbuffer` holds the whole header, now in host order. -/
def cutBody (r : Reader) (header : PacketHeader) (buf tran : Nat) : Except Fault Cut :=
  let bufLen := sub32 r.msgbuffer.length hdrlen
  -- `tran_byte += buf_len`: from here on it also counts the bytes already kept
  let tran := u32 (tran + bufLen)
  if tran < header.size then do
    let r ← keep (setMsgHeader r header.h2n) buf tran
    .ok (.brk r)
  else if header.timestamp ≠ M_PACGET_CODE then .ok (.fail r)
  else do
    let rest := sub32 header.size bufLen
    let r' ← keep r buf rest
    -- `header` points into the block that a growing `Write` has freed
    if r.msgbuffer.grows rest then .error .useAfterFree
    else handOver r' (buf + rest) (sub32 tran rest) header.size (read (msgData r') 0 header.size)

/-- A turn that finds the front of a packet in `msgbuffer`. -/
def cutSlow (r : Reader) (buf tran : Nat) : Except Fault Cut :=
  if u32 (r.msgbuffer.length + tran) < hdrlen then do
    let r ← keep r buf tran
    .ok (.brk r)
  else do
    let q ← fillHeader r buf tran
    let bs ← read (msgData q.1) 0 hdrlen
    let header := (ofBytes bs).n2h
    cutBody (setMsgHeader q.1 header) header q.2.1 q.2.2

def cutTurn (r : Reader) (buf tran : Nat) : Except Fault Cut :=
  if r.msgbuffer.length = 0 then cutFast r buf tran else cutSlow r buf tran

theorem handOver_deliver {r r' : Reader} {buf buf' tran tran' n : Nat} {data : Except Fault (List UInt8)}
    {d : List UInt8} (h : handOver r buf tran n data = .ok (.deliver r' buf' tran' d)) :
    n ≤ M_SOCKET_PACK_SIZE ∧ data = .ok d ∧ r' = { r with msgbuffer := r.msgbuffer.clear } ∧ buf' = buf ∧
      tran' = tran := by
  unfold handOver at h
  split at h
  · cases h
  · rename_i hn
    obtain ⟨d', hd, he⟩ := Except.bind_eq_ok.mp h
    cases he
    exact ⟨Nat.not_lt.mp hn, hd, rfl, rfl, rfl⟩

theorem cutTurn_deliver {r r' : Reader} {buf buf' tran tran' : Nat} {d : List UInt8}
    (h : cutTurn r buf tran = .ok (.deliver r' buf' tran' d)) :
    r'.msgbuffer.length = 0 ∧ (r.msgbuffer.length = 0 → tran' < tran) := by
  unfold cutTurn at h
  split at h
  · unfold cutFast at h
    split at h
    · obtain ⟨_, _, he⟩ := Except.bind_eq_ok.mp h
      cases he
    · rename_i ht
      obtain ⟨bs, _, he⟩ := Except.bind_eq_ok.mp h
      simp only at he
      split at he
      · obtain ⟨_, _, he⟩ := Except.bind_eq_ok.mp he
        cases he
      · split at he
        · cases he
        · obtain ⟨_, _, rfl, -, rfl⟩ := handOver_deliver he
          exact ⟨Buffer.clear_length _, fun _ => by unfold hdrlen at ht ⊢; omega⟩
  · rename_i hz
    refine ⟨?_, fun h0 => absurd h0 hz⟩
    unfold cutSlow at h
    split at h
    · obtain ⟨_, _, he⟩ := Except.bind_eq_ok.mp h
      cases he
    · obtain ⟨q, _, he⟩ := Except.bind_eq_ok.mp h
      obtain ⟨bs, _, he⟩ := Except.bind_eq_ok.mp he
      unfold cutBody at he
      simp only at he
      split at he
      · obtain ⟨_, _, he⟩ := Except.bind_eq_ok.mp he
        cases he
      · split at he
        · cases he
        · obtain ⟨r₂, _, he⟩ := Except.bind_eq_ok.mp he
          split at he
          · cases he
          · obtain ⟨_, _, rfl, -, -⟩ := handOver_deliver he
            exact Buffer.clear_length _

/-- The loop of `_CutMsgPack`: the reader it leaves, the payloads handed to
`OnReceiveData` and the value returned. -/
def cutLoop (r : Reader) (buf tran : Nat) : Except Fault (Reader × List (List UInt8) × Bool) :=
  match h : cutTurn r buf tran with
  | .error f => .error f
  | .ok (.brk r') => .ok (r', [], true)
  | .ok (.fail r') => .ok (r', [], false)
  | .ok (.deliver r' buf' tran' d) =>
    have := cutTurn_deliver h
    match cutLoop r' buf' tran' with
    | .error f => .error f
    | .ok (r'', ds, ret) => .ok (r'', d :: ds, ret)
termination_by (if r.msgbuffer.length = 0 then 0 else 1, tran)
decreasing_by
  obtain ⟨h0, hlt⟩ := this
  by_cases hz : r.msgbuffer.length = 0
  · rw [if_pos h0, if_pos hz]; exact Prod.Lex.right _ (hlt hz)
  · rw [if_pos h0, if_neg hz]; exact Prod.Lex.left _ _ (by decide)

/-- `_CutMsgPack(_reader.readbuf, tran_byte)` -/
def cutMsgPack (r : Reader) (tran : Nat) : Except Fault (Reader × List (List UInt8) × Bool) := cutLoop r 0 tran

/-- `_ReadHandler` on the reads of one connection, in order: reading goes on
while `_CutMsgPack` returns true. -/
def readAll : Reader → List (List UInt8) → Except Fault (Reader × List (List UInt8) × Bool)
  | r, [] => .ok (r, [], true)
  | r, x :: xs =>
    match cutMsgPack (r.recv x) x.length with
    | .error f => .error f
    | .ok (r', ds, false) => .ok (r', ds, false)
    | .ok (r', ds, true) =>
      match readAll r' xs with
      | .error f => .error f
      | .ok (r'', ds', ret) => .ok (r'', ds ++ ds', ret)

/-- What a turn hands over has passed the size check. -/
theorem cutTurn_length_le {r r' : Reader} {buf buf' tran tran' : Nat} {d : List UInt8}
    (h : cutTurn r buf tran = .ok (.deliver r' buf' tran' d)) : d.length ≤ M_SOCKET_PACK_SIZE := by
  have passed : ∀ {q : Reader} {b t n m off : Nat} {mem : List UInt8},
      handOver q b t n (read mem off m) = .ok (.deliver r' buf' tran' d) → m = n → d.length ≤ M_SOCKET_PACK_SIZE := by
    intro q b t n m off mem hh hm
    obtain ⟨hn, hd, -⟩ := handOver_deliver hh
    rw [(read_eq_ok hd).2.2, hm]
    exact hn
  unfold cutTurn at h
  split at h
  · unfold cutFast at h
    split at h
    · obtain ⟨_, _, he⟩ := Except.bind_eq_ok.mp h
      cases he
    · obtain ⟨bs, _, he⟩ := Except.bind_eq_ok.mp h
      simp only at he
      split at he
      · obtain ⟨_, _, he⟩ := Except.bind_eq_ok.mp he
        cases he
      · split at he
        · cases he
        · exact passed he rfl
  · unfold cutSlow at h
    split at h
    · obtain ⟨_, _, he⟩ := Except.bind_eq_ok.mp h
      cases he
    · obtain ⟨q, _, he⟩ := Except.bind_eq_ok.mp h
      obtain ⟨bs, _, he⟩ := Except.bind_eq_ok.mp he
      unfold cutBody at he
      simp only at he
      split at he
      · obtain ⟨_, _, he⟩ := Except.bind_eq_ok.mp he
        cases he
      · split at he
        · cases he
        · obtain ⟨r₂, _, he⟩ := Except.bind_eq_ok.mp he
          split at he
          · cases he
          · exact passed he rfl

theorem cutLoop_length_le (r : Reader) (buf tran : Nat) : ∀ {r' : Reader} {ds : List (List UInt8)} {ret : Bool},
    cutLoop r buf tran = .ok (r', ds, ret) → ∀ d ∈ ds, d.length ≤ M_SOCKET_PACK_SIZE := by
  fun_induction cutLoop r buf tran with
  | case1 => intro _ _ _ h; cases h
  | case2 => intro _ _ _ h; cases h; simp
  | case3 => intro _ _ _ h; cases h; simp
  | case4 => intro _ _ _ h; cases h
  | case5 r buf tran r₁ buf₁ tran₁ d ht _ r₂ ds₂ ret₂ hrest ih =>
    intro r' ds ret h
    cases h
    intro x hx
    rcases List.mem_cons.mp hx with rfl | hx
    · exact cutTurn_length_le ht
    · exact ih hrest x hx

theorem readAll_length_le : ∀ {xs : List (List UInt8)} {r r' : Reader} {ds : List (List UInt8)} {ret : Bool},
    readAll r xs = .ok (r', ds, ret) → ∀ d ∈ ds, d.length ≤ M_SOCKET_PACK_SIZE
  | [], _, _, _, _, h => by cases h; simp
  | x :: xs, r, r', ds, ret, h => by
    unfold readAll at h
    split at h
    · cases h
    · rename_i hcut
      cases h
      exact cutLoop_length_le _ _ _ hcut
    · rename_i hcut
      split at h
      · cases h
      · rename_i hrest
        cases h
        intro d hd
        rcases List.mem_append.mp hd with hd | hd
        · exact cutLoop_length_le _ _ _ hcut d hd
        · exact readAll_length_le hrest d hd
/-! ## Sending -/

/-- The state `_CheckCanSend` and `SendPacket` look at. -/
structure Writer where
  /-- `_flag == E_STATE_START` -/
  started : Bool
  msgbuffer2 : Buffer

/-- `E_MAX_BUFFER_SIZE` -/
def E_MAX_BUFFER_SIZE : Nat := 1024 * 1024 * 1

def checkCanSend (w : Writer) (len : Int) : Bool :=
  0 < len && len ≤ M_SOCKET_PACK_SIZE && w.started && w.msgbuffer2.pos + len ≤ E_MAX_BUFFER_SIZE

/-- `SendPacket` up to `_TrySendData`: what it answers and the bytes queued. -/
def sendPacket (w : Writer) (data : List UInt8) : Except Fault (Writer × Bool) :=
  if checkCanSend w (i32 (data.length + hdrlen)) then do
    let mb ← w.msgbuffer2.write (packetHeader data.length).h2n.toBytes
    let mb ← mb.write data
    .ok ({ w with msgbuffer2 := mb }, true)
  else .ok (w, false)

theorem sendPacket_packet {w w' : Writer} {data : List UInt8} (h : sendPacket w data = .ok (w', true)) :
    w'.msgbuffer2.data = w.msgbuffer2.data ++ packet data ∧ data.length + hdrlen ≤ M_SOCKET_PACK_SIZE := by
  unfold sendPacket at h
  split at h
  · rename_i hc
    obtain ⟨mb, h1, h⟩ := Except.bind_eq_ok.mp h
    obtain ⟨mb', h2, h⟩ := Except.bind_eq_ok.mp h
    cases h
    have e1 := (Buffer.write_eq_ok h1).1
    have hlt := (Buffer.write_eq_ok h2).2.2.2
    rw [e1, List.length_append, length_toBytes] at hlt
    simp only [checkCanSend, Bool.and_eq_true, decide_eq_true_eq] at hc
    refine ⟨by rw [(Buffer.write_eq_ok h2).1, e1, packet, List.append_assoc], ?_⟩
    have hi := hc.1.1
    unfold i32 M_SOCKET_PACK_SIZE hdrlen at *
    omega
  · cases h

end GlobalServer
