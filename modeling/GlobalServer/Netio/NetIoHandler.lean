import GlobalServer.Netio.FrameBytes
import GlobalServer.Netio.TcpStream

/-!
# `NetIoHandler`

A received payload lies at the front of a block of memory. Its frame is
converted in place, once when the message is taken and around each send. The
ranges of the block that are used are recorded; a read gives as much of its
range as the block holds.
-/

namespace GlobalServer

open Bytes

/-- `NetIoHandler`, of each connection only the descriptor. -/
structure NetIoHandler where
  tcpSocketContainer : List Int
  tcpConnectorContainer : List Int

def M_TCP_CONNECTOR_FD_FLAG : Int := 2 ^ 33

def M_TCP_FD_FLAG : Int := 2 ^ 34

/-- `M_CHECK_IS_TCP_CONNECTOR_FD`: the bit of the flag -/
def checkIsTcpConnectorFd (fd : Int) : Bool := fd / M_TCP_CONNECTOR_FD_FLAG % 2 = 1

/-- `M_CHECK_IS_TCP_FD` -/
def checkIsTcpFd (fd : Int) : Bool := fd / M_TCP_FD_FLAG % 2 = 1

/-- `SendDataByFd`: the block after it, and what `SendPacket` is given if there is a connection with the
descriptor. -/
def NetIoHandler.sendDataByFd (nio : NetIoHandler) (mem : List UInt8) (fd : Int) (data : Nat) (len : Int) :
    List UInt8 × Option (List UInt8) :=
  let mem := write mem data (AppHeadFrame.ofBytes (mem.drop data)).h2n.toBytes
  let packet := (mem.drop data).take (len % 2 ^ 32).toNat
  let handed :=
    if checkIsTcpFd fd then if fd ∈ nio.tcpSocketContainer then some packet else none
    else if checkIsTcpConnectorFd fd then if fd ∈ nio.tcpConnectorContainer then some packet else none
    else none
  (write mem data (AppHeadFrame.ofBytes (mem.drop data)).n2h.toBytes, handed)

/-- `len` bytes of the block from offset `off` on. -/
structure Range where
  off : Nat
  len : Nat
  deriving DecidableEq

/-- Whom a message is sent on to. -/
inductive Dest where
  | inst (svrType : UInt32) (instId : Int)
  | transfer
  deriving DecidableEq

/-- A call of `SendDataByFd`: its destination, the bytes handed to a connection and the block after it. -/
structure Sent where
  dest : Dest
  fd : Int
  handed : Option (List UInt8)
  mem : List UInt8
  deriving DecidableEq

/-- What the handling of a message has come to. -/
structure Handling where
  mem : List UInt8
  ranges : List Range
  sends : List Sent
  deriving DecidableEq

namespace Handling

/-- The range is used. -/
def use (t : Handling) (off len : Nat) : Handling := { t with ranges := t.ranges ++ [⟨off, len⟩] }

/-- `SendDataByFd` of `len` bytes of the block. -/
def send (t : Handling) (nio : NetIoHandler) (dest : Dest) (fd : Int) (data : Nat) (len : Int) : Handling :=
  let out := nio.sendDataByFd t.mem fd data len
  { mem := out.1
    ranges := t.ranges ++ [⟨data, AppHeadFrame.size⟩, ⟨data, (len % 2 ^ 32).toNat⟩]
    sends := t.sends ++ [{ dest, fd, handed := out.2, mem := out.1 }] }

/-- `ParseMsg` with `_cur_frame` at the front of the block and `_cur_frame_data` at `data`. -/
def parseMsg (data : Nat) (t : Handling) : Handling := t.use data (AppHeadFrame.ofBytes t.mem).cmdLength.toNat

end Handling

/-- `_callback`, with the offset of `data` and `data_len`. -/
abbrev Callback := Int → Nat → UInt32 → Handling → Handling

/-- `ConsumTcpSocketMsg` or `ConsumTcpConnectorMsg` for a message of the type `M_SOCKET_DATA` that has come over
`fd`. -/
def consumMsg (container : List Int) (callback : Callback) (fd : Int) (mem : List UInt8) : Handling :=
  if fd ∈ container then
    let frame := (AppHeadFrame.ofBytes mem).n2h
    let t : Handling := { mem := write mem 0 frame.toBytes, ranges := [⟨0, AppHeadFrame.size⟩], sends := [] }
    callback fd AppHeadFrame.size frame.cmdLength (t.use AppHeadFrame.size frame.cmdLength.toNat)
  else { mem, ranges := [], sends := [] }

namespace NetIoHandler

/-- `ConsumTcpSocketMsg` for a message of data -/
def consumTcpSocketMsg (nio : NetIoHandler) : Callback → Int → List UInt8 → Handling :=
    consumMsg nio.tcpSocketContainer

/-- `ConsumTcpConnectorMsg` for a message of data -/
def consumTcpConnectorMsg (nio : NetIoHandler) : Callback → Int → List UInt8 → Handling :=
    consumMsg nio.tcpConnectorContainer

end NetIoHandler

/-- `TransactionMgr::ProcessFrame`, whose handler calls `ParseMsg` some number of times before the message is
given back. -/
def processFrame (parses : Nat) : Callback := fun _ data _ t => (Handling.parseMsg data)^[parses] t

/-! ## The block -/

open AppHeadFrame

theorem write_toBytes (f : AppHeadFrame) (mem : List UInt8) : write mem 0 f.toBytes = f.toBytes ++ mem.drop size := by
  simp [write]

theorem ofBytes_write (f : AppHeadFrame) (mem : List UInt8) : ofBytes (write mem 0 f.toBytes) = f := by
  rw [write_toBytes, ofBytes_toBytes]

theorem write_ofBytes {mem : List UInt8} (h : size ≤ mem.length) : write mem 0 (ofBytes mem).toBytes = mem := by
  rw [write_toBytes, toBytes_ofBytes h, List.take_append_drop]

theorem sendDataByFd_mem (nio : NetIoHandler) {mem : List UInt8} (h : size ≤ mem.length) (fd len : Int) :
    (nio.sendDataByFd mem fd 0 len).1 = mem := by
  simp only [NetIoHandler.sendDataByFd, List.drop_zero]
  rw [ofBytes_write, n2h_h2n, write_write (Nat.zero_le _) (by simp), write_ofBytes h]

theorem sendDataByFd_handed (nio : NetIoHandler) {mem bs : List UInt8} {fd len : Int}
    (hs : (nio.sendDataByFd mem fd 0 len).2 = some bs) :
    bs = (write mem 0 (ofBytes mem).h2n.toBytes).take (len % 2 ^ 32).toNat := by
  simp only [NetIoHandler.sendDataByFd, List.drop_zero] at hs
  split at hs
  · split at hs
    · exact (Option.some.inj hs).symm
    · cases hs
  · split at hs
    · split at hs
      · exact (Option.some.inj hs).symm
      · cases hs
    · cases hs

end GlobalServer
