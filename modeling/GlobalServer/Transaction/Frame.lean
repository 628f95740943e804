import Mathlib.Data.UInt

/-!
# Frames and the router

`AppHeadFrame` in host order, and how `RouterMgr` makes one for a message.
What `SendMsg` hands to `NetIoHandler::SendDataByFd` is the frame with the
descriptor of the router it is sent to.
-/

namespace GlobalServer

structure AppHeadFrame where
  isBroadcast : UInt16 := 0
  srcZone : UInt16 := 0
  dstZone : UInt16 := 0
  srcSvrType : UInt32 := 0
  dstSvrType : UInt32 := 0
  srcInstId : UInt32 := 0
  dstInstId : UInt32 := 0
  srcTransId : UInt32 := 0
  dstTransId : UInt32 := 0
  cmd : UInt32 := 0
  cmdLength : UInt32 := 0
  userid : UInt64 := 0
  reqRandom : UInt32 := 0
  deriving DecidableEq

/-- `RouterMgr`, of each router only the descriptor. -/
structure RouterMgr where
  selfServerType : Int
  selfInstanceId : Int
  selfServerZone : Int
  routerInfoVec : List Int

/-- A message as `SendMsg` is asked to send it; `len` is the length of its serialised body. -/
structure Msg where
  cmd : UInt32
  userid : UInt64
  isBroadcast : Bool
  dstZone : UInt16
  dstSvrType : UInt32
  dstInstId : UInt32
  srcTransId : UInt32
  dstTransId : UInt32
  reqRandom : UInt32
  len : UInt32

namespace RouterMgr

def sendMsgByFd (r : RouterMgr) (fd : Int) (msg : Msg) : Int × AppHeadFrame :=
  (fd,
    { isBroadcast := if msg.isBroadcast then 1 else 0
      srcZone := UInt16.ofInt r.selfServerZone
      dstZone := msg.dstZone
      srcSvrType := UInt32.ofInt r.selfServerType
      dstSvrType := msg.dstSvrType
      srcInstId := UInt32.ofInt r.selfInstanceId
      dstInstId := msg.dstInstId
      srcTransId := msg.srcTransId
      dstTransId := msg.dstTransId
      cmd := msg.cmd
      cmdLength := msg.len
      userid := msg.userid
      reqRandom := msg.reqRandom })

/-- `SendMsg`: with no router there is nobody to send to. -/
def sendMsg (r : RouterMgr) (msg : Msg) : Option (Int × AppHeadFrame) :=
  (r.routerInfoVec[msg.userid.toNat % r.routerInfoVec.length]?).map fun fd => r.sendMsgByFd fd msg

theorem sendMsg_eq_none {r : RouterMgr} {msg : Msg} : r.sendMsg msg = none ↔ r.routerInfoVec = [] := by
  unfold sendMsg
  cases h : r.routerInfoVec with
  | nil => simp
  | cons fd fds =>
    have hlt : msg.userid.toNat % (fd :: fds).length < (fd :: fds).length := Nat.mod_lt _ (by simp)
    rw [Option.map_eq_none_iff, List.getElem?_eq_none_iff]
    exact iff_of_false (Nat.not_le.mpr hlt) (by simp)

theorem sendMsg_frame {r : RouterMgr} {msg : Msg} {out : Int × AppHeadFrame} (h : r.sendMsg msg = some out) :
    out.2 = (r.sendMsgByFd out.1 msg).2 := by
  obtain ⟨fd, -, rfl⟩ := Option.map_eq_some_iff.mp h
  rfl

end RouterMgr

end GlobalServer
