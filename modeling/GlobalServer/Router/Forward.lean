import GlobalServer.Netio.NetIoHandler
import GlobalServer.Router.ServerInstance
import Mathlib.Tactic.NormNum.Basic

/-!
# The router's dispatch

`RouterApplication::OnProc` hands the base commands to the transactions and
sends everything else on: to the instances that are asked for or chosen, or
to a transfersvr when the message is for another zone. What is sent is the
received block itself, header included.
-/

namespace GlobalServer

open Bytes AppHeadFrame

def CMD_SOCKET_CLIENT_IN : UInt32 := 0x1

def CMD_SOCKET_CLIENT_OUT : UInt32 := 0x2

def CMD_REGISTER_SERVER_REQ : UInt32 := 0x3

def CMD_REGISTER_SERVER_RSP : UInt32 := 0x4

def CMD_SVR_HEATBEAT : UInt32 := 0x10

/-- The commands that `OnProc` does not forward. -/
def baseCmds : List UInt32 :=
  [CMD_SOCKET_CLIENT_OUT, CMD_SOCKET_CLIENT_IN, CMD_REGISTER_SERVER_REQ, CMD_REGISTER_SERVER_RSP, CMD_SVR_HEATBEAT]

/-- `RouterApplication` with the singletons it uses; of each transfer only the descriptor. -/
structure RouterApplication where
  serverZone : Int
  severInstanceMgr : SeverInstanceMgr
  transferInfoVec : List Int
  netIoHandler : NetIoHandler

namespace RouterApplication

def getTransferInstId (r : RouterApplication) (userid : UInt64) : List Int :=
  r.transferInfoVec[userid.toNat % r.transferInfoVec.length]?.toList

/-- `src_len` in `ForwardPkg` and `ForwarPkgToTransfer` -/
def srcLen (dataLen : UInt32) : Int := i32 (dataLen.toNat + size : Nat)

def forwardPkg (r : RouterApplication) (dstSvrType : UInt32) (dstInstId : Int) (data : Nat) (dataLen : UInt32)
    (t : Handling) : Handling :=
  let fd := r.severInstanceMgr.getFdByTypeId dstSvrType dstInstId
  if fd ≠ 0 then t.send r.netIoHandler (.inst dstSvrType dstInstId) fd (data - size) (srcLen dataLen) else t

def forwarPkgToTransfer (r : RouterApplication) (data : Nat) (dataLen : UInt32) (t : Handling) : Handling :=
  (r.getTransferInstId (ofBytes t.mem).userid).foldl
    (fun t fd => t.send r.netIoHandler .transfer fd (data - size) (srcLen dataLen)) t

/-- The loop over `inst_vec`, which reads the type from the frame each time. -/
def forwardAll (r : RouterApplication) (data : Nat) (dataLen : UInt32) (instVec : List Int)
    (t : Handling) : Handling :=
  instVec.foldl (fun t id => r.forwardPkg (ofBytes t.mem).dstSvrType id data dataLen t) t

/-- `OnProc`; a base command's handler calls `ParseMsg` `parses` times. -/
def onProc (r : RouterApplication) (parses : Nat) : Callback := fun fd data dataLen t =>
  let frame := ofBytes t.mem
  if frame.cmd ∈ baseCmds then processFrame parses fd data dataLen t
  else if (frame.dstZone.toNat : Int) = r.serverZone then
    if frame.dstInstId ≠ 0 then r.forwardPkg frame.dstSvrType (i32 frame.dstInstId.toNat) data dataLen t
    else r.forwardAll data dataLen
      (r.severInstanceMgr.routerPolicy frame.userid frame.dstSvrType (decide (frame.isBroadcast ≠ 0)) []) t
  else r.forwarPkgToTransfer data dataLen t

/-! ## What a dispatch sends -/

/-- The calls of `SendDataByFd` for some destinations, with nothing in the block changed. -/
def sendsTo (r : RouterApplication) (dataLen : UInt32) (mem : List UInt8) (dests : List (Dest × Int)) : List Sent :=
  dests.map fun d => { dest := d.1, fd := d.2, handed := (r.netIoHandler.sendDataByFd mem d.2 0 (srcLen dataLen)).2, mem }

/-- The instances among `ids` that the router has a descriptor for. -/
def instDests (r : RouterApplication) (svrType : UInt32) (ids : List Int) : List (Dest × Int) :=
  (ids.map fun id => (Dest.inst svrType id, r.severInstanceMgr.getFdByTypeId svrType id)).filter fun d => d.2 ≠ 0

/-- Whom a frame is for. -/
def dests (r : RouterApplication) (frame : AppHeadFrame) : List (Dest × Int) :=
  if frame.cmd ∈ baseCmds then []
  else if (frame.dstZone.toNat : Int) = r.serverZone then
    if frame.dstInstId ≠ 0 then r.instDests frame.dstSvrType [i32 frame.dstInstId.toNat]
    else r.instDests frame.dstSvrType
      (r.severInstanceMgr.routerPolicy frame.userid frame.dstSvrType (decide (frame.isBroadcast ≠ 0)) [])
  else (r.getTransferInstId frame.userid).map fun fd => (.transfer, fd)

section
variable {r : RouterApplication} {t : Handling} {dataLen : UInt32} (h : size ≤ t.mem.length)
include h

theorem send_mem (dest : Dest) (fd : Int) : (t.send r.netIoHandler dest fd 0 (srcLen dataLen)).mem = t.mem :=
  sendDataByFd_mem r.netIoHandler h fd (srcLen dataLen)

theorem send_sends (dest : Dest) (fd : Int) :
    (t.send r.netIoHandler dest fd 0 (srcLen dataLen)).sends = t.sends ++ r.sendsTo dataLen t.mem [(dest, fd)] := by
  simp [Handling.send, sendsTo, sendDataByFd_mem _ h]

theorem forwardPkg_eq (svrType : UInt32) (id : Int) : (r.forwardPkg svrType id size dataLen t).mem = t.mem ∧
    (r.forwardPkg svrType id size dataLen t).sends = t.sends ++ r.sendsTo dataLen t.mem (r.instDests svrType [id]) := by
  unfold forwardPkg instDests
  simp only [Nat.sub_self]
  by_cases h0 : r.severInstanceMgr.getFdByTypeId svrType id = 0
  · simp [h0, sendsTo]
  · simp only [ne_eq, h0, not_false_eq_true, if_true]
    refine ⟨send_mem h _ _, ?_⟩
    rw [send_sends h]
    simp [h0]

theorem forwarPkgToTransfer_eq : (r.forwarPkgToTransfer size dataLen t).mem = t.mem ∧
    (r.forwarPkgToTransfer size dataLen t).sends =
      t.sends ++ r.sendsTo dataLen t.mem ((r.getTransferInstId (ofBytes t.mem).userid).map fun fd => (.transfer, fd)) := by
  unfold forwarPkgToTransfer
  simp only [Nat.sub_self]
  generalize r.getTransferInstId (ofBytes t.mem).userid = fds
  induction fds generalizing t with
  | nil => simp [sendsTo]
  | cons fd fds ih =>
    have hm : (t.send r.netIoHandler .transfer fd 0 (srcLen dataLen)).mem = t.mem := send_mem h .transfer fd
    obtain ⟨ih1, ih2⟩ := ih (t := t.send r.netIoHandler .transfer fd 0 (srcLen dataLen)) (by rw [hm]; exact h)
    rw [hm] at ih1 ih2
    refine ⟨ih1, ?_⟩
    rw [List.foldl_cons, ih2, send_sends h]
    simp [sendsTo]

theorem forwardAll_eq (ids : List Int) : (r.forwardAll size dataLen ids t).mem = t.mem ∧
    (r.forwardAll size dataLen ids t).sends =
      t.sends ++ r.sendsTo dataLen t.mem (r.instDests (ofBytes t.mem).dstSvrType ids) := by
  unfold forwardAll
  induction ids generalizing t with
  | nil => simp [sendsTo, instDests]
  | cons id ids ih =>
    obtain ⟨hm, hs⟩ : (r.forwardPkg (ofBytes t.mem).dstSvrType id size dataLen t).mem = t.mem ∧ _ :=
      forwardPkg_eq h _ id
    obtain ⟨ih1, ih2⟩ := ih (t := r.forwardPkg (ofBytes t.mem).dstSvrType id size dataLen t) (by rw [hm]; exact h)
    rw [hm] at ih1 ih2
    refine ⟨ih1, ?_⟩
    rw [List.foldl_cons, ih2, hs]
    simp only [sendsTo, instDests, List.map_cons, List.filter_cons, List.map_nil, List.filter_nil, List.append_assoc]
    split <;> simp

theorem onProc_eq (parses : Nat) (fd : Int) : (r.onProc parses fd size dataLen t).mem = t.mem ∧
    (r.onProc parses fd size dataLen t).sends = t.sends ++ r.sendsTo dataLen t.mem (r.dests (ofBytes t.mem)) := by
  have hparse : ∀ n, ((Handling.parseMsg size)^[n] t).mem = t.mem ∧
    ((Handling.parseMsg size)^[n] t).sends = t.sends := by
    intro n
    induction n with
    | zero => exact ⟨rfl, rfl⟩
    | succ n ih =>
      rw [Function.iterate_succ_apply']
      exact ih
  unfold onProc dests processFrame
  simp only
  split
  · simpa [sendsTo] using hparse parses
  · split
    · split
      · exact forwardPkg_eq h _ _
      · exact forwardAll_eq h _
    · exact forwarPkgToTransfer_eq h

end

end RouterApplication

end GlobalServer
