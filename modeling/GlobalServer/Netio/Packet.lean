import GlobalServer.Lib.Bytes

/-!
# The packet header of slience/netio

Two packed 32-bit words on a little-endian host: a magic code, which the
source calls `timestamp`, and the payload's size.
-/

namespace GlobalServer

open Bytes

def M_SOCKET_READ_SIZE : Nat := 4 * 1024

def M_SOCKET_PACK_SIZE : Nat := 400 * 1024

def M_PACGET_CODE : Nat := 0xFCFCFC

structure PacketHeader where
  timestamp : Nat
  size : Nat
  deriving DecidableEq, Repr

namespace PacketHeader

/-- `sizeof(PacketHeader)` -/
def hdrlen : Nat := 8

/-- Both words fit. -/
def WF (h : PacketHeader) : Prop := h.timestamp < 256 ^ 4 ∧ h.size < 256 ^ 4

/-- The header's bytes in memory. -/
def toBytes (h : PacketHeader) : List UInt8 := leBytes 4 h.timestamp ++ leBytes 4 h.size

/-- The header that lies at the front of some memory. -/
def ofBytes (l : List UInt8) : PacketHeader :=
  { timestamp := leNat (l.take 4), size := leNat ((l.drop 4).take 4) }

def n2h (h : PacketHeader) : PacketHeader := { timestamp := swap 4 h.timestamp, size := swap 4 h.size }

def h2n (h : PacketHeader) : PacketHeader := { timestamp := swap 4 h.timestamp, size := swap 4 h.size }

@[simp] theorem length_toBytes (h : PacketHeader) : h.toBytes.length = hdrlen := by
  simp [toBytes, hdrlen]

theorem ofBytes_toBytes (h : PacketHeader) (hw : h.WF) : ofBytes h.toBytes = h := by
  have e1 : (leBytes 4 h.timestamp ++ leBytes 4 h.size).take 4 = leBytes 4 h.timestamp :=
    List.take_left' (by simp)
  have e2 : (leBytes 4 h.timestamp ++ leBytes 4 h.size).drop 4 = leBytes 4 h.size :=
    List.drop_left' (by simp)
  rw [ofBytes, toBytes, e1, e2, List.take_of_length_le (by simp), leNat_leBytes 4 _ hw.1, leNat_leBytes 4 _ hw.2]

theorem toBytes_ofBytes {l : List UInt8} (hl : l.length = hdrlen) : (ofBytes l).toBytes = l := by
  unfold hdrlen at hl
  have h1 := leBytes_leNat (l.take 4)
  have h2 := leBytes_leNat ((l.drop 4).take 4)
  rw [List.length_take_of_le (by omega)] at h1
  rw [List.length_take_of_le (by rw [List.length_drop]; omega)] at h2
  have h3 : (l.drop 4).take 4 = l.drop 4 := List.take_of_length_le (by rw [List.length_drop]; omega)
  rw [toBytes, ofBytes, h1, h2, h3, List.take_append_drop]

theorem wf_ofBytes {l : List UInt8} (hl : l.length = hdrlen) : (ofBytes l).WF := by
  unfold hdrlen at hl
  have h1 := leNat_lt (l.take 4)
  have h2 := leNat_lt ((l.drop 4).take 4)
  rw [List.length_take_of_le (by omega)] at h1
  rw [List.length_take_of_le (by rw [List.length_drop]; omega)] at h2
  exact ⟨h1, h2⟩

theorem wf_n2h (h : PacketHeader) : h.n2h.WF := ⟨swap_lt 4 _, swap_lt 4 _⟩

theorem wf_h2n (h : PacketHeader) : h.h2n.WF := ⟨swap_lt 4 _, swap_lt 4 _⟩

theorem n2h_h2n (h : PacketHeader) (hw : h.WF) : h.h2n.n2h = h := by
  rw [n2h, h2n, swap_swap 4 _ hw.1, swap_swap 4 _ hw.2]

theorem h2n_n2h (h : PacketHeader) (hw : h.WF) : h.n2h.h2n = h := by
  rw [n2h, h2n, swap_swap 4 _ hw.1, swap_swap 4 _ hw.2]

theorem n2h_ofBytes_take {h : PacketHeader} (hw : h.WF) (more : List UInt8) :
    (ofBytes ((h.h2n.toBytes ++ more).take hdrlen)).n2h = h := by
  rw [List.take_left' (length_toBytes _), ofBytes_toBytes _ (wf_h2n _), n2h_h2n _ hw]

end PacketHeader

/-- The header `SendPacket` builds for a payload of `len` bytes, before `h2n`. -/
def packetHeader (len : Nat) : PacketHeader := { timestamp := M_PACGET_CODE, size := len }

@[simp] theorem packetHeader_size (len : Nat) : (packetHeader len).size = len := rfl

@[simp] theorem packetHeader_timestamp (len : Nat) : (packetHeader len).timestamp = M_PACGET_CODE := rfl

theorem packetHeader_wf {len : Nat} (h : len < 2 ^ 32) : (packetHeader len).WF := by
  constructor
  · show (0xFCFCFC : Nat) < 256 ^ 4; decide
  · show len < 256 ^ 4; omega

/-- A payload as it goes over the wire. -/
def packet (p : List UInt8) : List UInt8 := (packetHeader p.length).h2n.toBytes ++ p

@[simp] theorem length_packet (p : List UInt8) : (packet p).length = PacketHeader.hdrlen + p.length := by
  simp [packet]

/-- The bytes of payloads framed one after another. -/
def stream (ps : List (List UInt8)) : List UInt8 := (ps.map packet).flatten

@[simp] theorem stream_nil : stream [] = [] := rfl

@[simp] theorem stream_cons (p : List UInt8) (ps : List (List UInt8)) :
    stream (p :: ps) = packet p ++ stream ps := rfl

@[simp] theorem stream_append (ps qs : List (List UInt8)) : stream (ps ++ qs) = stream ps ++ stream qs := by
  simp [stream]

end GlobalServer
