import GlobalServer.Base.Buffer
import GlobalServer.Netio.Packet

/-!
# The blocking connector: `SyncConnector`

`Send` frames a payload with the clock where `SendPacket` puts its magic code,
and `Recv` reads until `_CutMsgPack` has put one packet together in
`_rcvbuffer`. `tran_byte` is a reference to `_readsize`, so what a call leaves
of a read is counted there.
-/

namespace GlobalServer

open Bytes PacketHeader

structure SyncConnector where
  /-- `_flag == E_STATE_START` -/
  started : Bool
  curheader : PacketHeader
  /-- a block of `M_SOCKET_READ_SIZE` bytes -/
  readbuf : List UInt8
  readsize : Nat
  sndbuffer : Buffer
  rcvbuffer : Buffer

namespace SyncConnector

def init : SyncConnector :=
  { started := false
    curheader := { timestamp := 0, size := 0 }
    readbuf := List.replicate M_SOCKET_READ_SIZE 0
    readsize := 0
    sndbuffer := Buffer.init
    rcvbuffer := Buffer.init }

/-- `Connect`, once the socket has connected. -/
def connect (s : SyncConnector) : SyncConnector := { s with started := true }

def close (s : SyncConnector) : SyncConnector := { s with started := false }

/-- The largest payload that `Send` and `_CutMsgPack` take. -/
def maxLen : Nat := 0xFFFF - hdrlen

/-! ## Sending -/

/-- The loop of `Send`. An entry is what one `SendSome` does: it fails, or takes
some of the bytes offered. The bytes sent are counted up beside the connector. -/
def sendLoop (s : SyncConnector) (sent : List UInt8) : List (Option Nat) → Option (SyncConnector × List UInt8 × Bool)
  | [] => none
  | none :: _ => some (s.close, sent, false)
  | some n :: sends =>
    let sndCnt := min n s.sndbuffer.length
    let s' := { s with sndbuffer := s.sndbuffer.cutData sndCnt }
    let sent := sent ++ s.sndbuffer.rest.take sndCnt
    if s'.sndbuffer.length = 0 then some (s', sent, true) else sendLoop s' sent sends

/-- The header of `Send`, before `h2n`; `now` is `time(0)`. -/
def sendHeader (now len : Nat) : PacketHeader := { timestamp := u32 now, size := len }

/-- A payload as `Send` puts it on the wire. -/
def frame (now : Nat) (p : List UInt8) : List UInt8 := (sendHeader now p.length).h2n.toBytes ++ p

@[simp] theorem length_frame (now : Nat) (p : List UInt8) : (frame now p).length = hdrlen + p.length := by
  simp [frame]

/-- What `SendPacket` queues is the frame whose clock reads the magic code. -/
theorem frame_code (p : List UInt8) : frame M_PACGET_CODE p = packet p := rfl

/-- `Send`, with the bytes that it has sent; `none` while it is still sending. -/
def send (s : SyncConnector) (now : Nat) (data : List UInt8) (sends : List (Option Nat)) :
    Except Fault (Option (SyncConnector × List UInt8 × Bool)) :=
  if ¬ s.started then .ok (some (s, [], false))
  else if 0 < data.length ∧ data.length ≤ maxLen then do
    let sb ← s.sndbuffer.clear.write (sendHeader now data.length).h2n.toBytes
    let sb ← sb.write data
    .ok (sendLoop { s with sndbuffer := sb } [] sends)
  else .ok (some (s, [], false))

/-! ## Receiving -/

/-- `_rcvbuffer.Write(buf, len)` -/
def keep (s : SyncConnector) (buf len : Nat) : Except Fault SyncConnector := do
  let bs ← read s.readbuf buf len
  let rb ← s.rcvbuffer.write bs
  .ok { s with rcvbuffer := rb }

/-- `_rcvbuffer.Read(_curheader)` -/
def readHeader (s : SyncConnector) : SyncConnector :=
  match s.rcvbuffer.read hdrlen with
  | (rb, some bs) => { s with rcvbuffer := rb, curheader := ofBytes bs }
  | (rb, none) => { s with rcvbuffer := rb }

/-- `_CutMsgPack` from the copy of the body on: whether the packet is complete. -/
def cutBody (s : SyncConnector) (buf : Nat) : Except Fault (SyncConnector × Bool) :=
  let datalen := s.rcvbuffer.length
  if u32 (s.readsize + datalen) < s.curheader.size then do
    let s ← s.keep buf s.readsize
    .ok (s, false)
  else do
    let rest := sub32 s.curheader.size datalen
    let s ← s.keep buf rest
    .ok ({ s with readsize := sub32 s.readsize rest, curheader := { s.curheader with size := 0 } }, true)

/-- `_CutMsgPack` from the conversion of the header on. -/
def cutChecked (s : SyncConnector) (buf : Nat) : Except Fault (SyncConnector × Bool) :=
  let s := { s with curheader := s.curheader.n2h }
  -- a header that announces too much stays in `_curheader`
  if maxLen < s.curheader.size then .ok (s, false) else s.cutBody buf

/-- `_CutMsgPack(_readbuf, _readsize)` -/
def cutMsgPack (s : SyncConnector) : Except Fault (SyncConnector × Bool) :=
  let datalen := s.rcvbuffer.length
  if s.curheader.size = 0 then
    if u32 (s.readsize + datalen) < hdrlen then do
      let s ← s.keep 0 s.readsize
      .ok (s, false)
    else if hdrlen ≤ datalen then s.readHeader.cutChecked 0
    else do
      let s ← s.keep 0 (hdrlen - datalen)
      { s with readsize := sub32 s.readsize (hdrlen - datalen) }.readHeader.cutChecked (hdrlen - datalen)
  else s.cutBody 0

/-- `RecvSome` puts the bytes of one read at the front of `_readbuf`. -/
def recvSome (s : SyncConnector) (x : List UInt8) : SyncConnector :=
  { s with readbuf := write s.readbuf 0 x, readsize := x.length }

/-- The loop of `Recv` on the reads to come: the connector, the reads left and
whether there is a packet. A read of nothing, like the end of the list, is the peer's close or an error. -/
def recvLoop : SyncConnector → List (List UInt8) → Except Fault (SyncConnector × List (List UInt8) × Bool)
  | s, [] => .ok ({ s with readsize := 0 }.close, [], false)
  | s, x :: xs =>
    if x = [] then .ok ({ s with readsize := 0 }.close, xs, false)
    else
      match (s.recvSome x).cutMsgPack with
      | .error f => .error f
      | .ok (s, true) => .ok (s, xs, true)
      | .ok (s, false) => recvLoop s xs

/-- `Recv` up to its result. -/
def recvPacket (s : SyncConnector) (reads : List (List UInt8)) :
    Except Fault (SyncConnector × List (List UInt8) × Bool) :=
  let s := { s with rcvbuffer := s.rcvbuffer.clear }
  -- what the last read left is looked for at the front of `_readbuf`
  if 0 < s.readsize then
    match s.cutMsgPack with
    | .error f => .error f
    | .ok (s, true) => .ok (s, reads, true)
    | .ok (s, false) => s.recvLoop reads
  else s.recvLoop reads

/-- `Recv`: the bytes of the buffer that it returns, if it returns one. -/
def recv (s : SyncConnector) (reads : List (List UInt8)) :
    Except Fault (SyncConnector × List (List UInt8) × Option (List UInt8)) :=
  if ¬ s.started then .ok (s, reads, none)
  else do
    let (s, reads, got) ← s.recvPacket reads
    .ok (s, reads, if got then some s.rcvbuffer.rest else none)

/-- What successive calls of `Recv` return. -/
def recvs : Nat → SyncConnector → List (List UInt8) → Except Fault (List (Option (List UInt8)))
  | 0, _, _ => .ok []
  | n + 1, s, reads => do
    let (s, reads, r) ← s.recv reads
    let rs ← recvs n s reads
    .ok (r :: rs)

end SyncConnector

end GlobalServer
