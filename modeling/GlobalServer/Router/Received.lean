import GlobalServer.Router.Forward

/-!
# Received payloads

A payload of the framing layer is a frame and a body, and the frame says how
long the body is. Where both lengths agree the router hands on what it has
received, byte for byte. Nothing compares them, so where they do not agree
the ranges that are used lie outside the payload.
-/

namespace GlobalServer

open Bytes AppHeadFrame

theorem ofBytes_append {l : List UInt8} (h : size ≤ l.length) (m : List UInt8) : ofBytes (l ++ m) = ofBytes l := by
  have hl : l ++ m = (ofBytes l).toBytes ++ (l.drop size ++ m) := by
    rw [toBytes_ofBytes h, ← List.append_assoc, List.take_append_drop]
  rw [hl, ofBytes_toBytes]

/-! ## Transparency -/

namespace RouterApplication

theorem consumMsg_sends (r : RouterApplication) (container : List Int) (parses : Nat) (fd : Int) (mem : List UInt8) :
    (consumMsg container (r.onProc parses) fd mem).sends =
      if fd ∈ container then
        r.sendsTo (ofBytes mem).n2h.cmdLength (write mem 0 (ofBytes mem).n2h.toBytes) (r.dests (ofBytes mem).n2h)
      else [] := by
  unfold consumMsg
  split
  · have hsize : size ≤ (write mem 0 (ofBytes mem).n2h.toBytes).length := by simp [write_toBytes]
    simp only [Handling.use]
    rw [(onProc_eq (by exact hsize) parses fd).2]
    simp [ofBytes_write]
  · rfl

theorem srcLen_of_length {payload : List UInt8} {dataLen : UInt32} (hlen : payload.length = size + dataLen.toNat)
    (hmax : payload.length ≤ M_SOCKET_PACK_SIZE) : (srcLen dataLen % 2 ^ 32).toNat = payload.length := by
  unfold M_SOCKET_PACK_SIZE at hmax
  unfold srcLen
  rw [i32_of_range] <;> omega

theorem sendsTo_transparent (r : RouterApplication) {payload junk mem : List UInt8} {dataLen : UInt32}
    {dests : List (Dest × Int)}
    (hlen : payload.length = size + dataLen.toNat) (hmax : payload.length ≤ M_SOCKET_PACK_SIZE)
    (hmem : write mem 0 (ofBytes mem).h2n.toBytes = payload ++ junk) :
    ∀ s ∈ r.sendsTo dataLen mem dests, (∀ bytes, s.handed = some bytes → bytes = payload) ∧ s.mem = mem := by
  intro s hs
  obtain ⟨d, -, rfl⟩ := List.mem_map.mp hs
  refine ⟨fun bytes hb => ?_, rfl⟩
  rw [sendDataByFd_handed _ hb, hmem, srcLen_of_length hlen hmax, List.take_left' rfl]

/-- Where the lengths agree, whatever destinations there are and whichever of them have a connection: what is
handed to a connection is the payload, and after each send the block has the payload's frame in host order. No
payload that is received is longer than `M_SOCKET_PACK_SIZE`, by `readAll_length_le`. -/
theorem transparent (r : RouterApplication) (container : List Int) (parses : Nat) (fd : Int)
    (payload junk : List UInt8)
    (hlen : payload.length = size + (ofBytes payload).n2h.cmdLength.toNat)
    (hmax : payload.length ≤ M_SOCKET_PACK_SIZE) :
    ∀ s ∈ (consumMsg container (r.onProc parses) fd (payload ++ junk)).sends,
      (∀ bytes, s.handed = some bytes → bytes = payload) ∧ ofBytes s.mem = (ofBytes payload).n2h ∧
        s.mem.drop size = (payload ++ junk).drop size := by
  intro s hs
  have hp : size ≤ payload.length := by omega
  have hframe : ofBytes (payload ++ junk) = ofBytes payload := ofBytes_append hp junk
  rw [consumMsg_sends, hframe] at hs
  by_cases hfd : fd ∈ container
  · rw [if_pos hfd] at hs
    let mem := write (payload ++ junk) 0 (ofBytes payload).n2h.toBytes
    -- converting the frame again gives the block as it was received
    have hback : write mem 0 (ofBytes mem).h2n.toBytes = payload ++ junk := by
      have hj : size ≤ (payload ++ junk).length := by rw [List.length_append]; omega
      simp only [mem]
      rw [ofBytes_write, h2n_n2h, write_write (Nat.zero_le _) (by simp), ← hframe, write_ofBytes hj]
    obtain ⟨hbytes, hmem⟩ := sendsTo_transparent r hlen hmax hback s hs
    refine ⟨hbytes, ?_, ?_⟩
    · rw [hmem]
      exact ofBytes_write _ _
    · rw [hmem]
      simp only [mem, write_toBytes]
      exact List.drop_left' (length_toBytes _)
  · rw [if_neg hfd] at hs
    cases hs

/-- A message of two bytes for all the instances of the type 1, in network order. -/
def toAll : List UInt8 :=
  ({ isBroadcast := 1, dstZone := 1, dstSvrType := 1, cmd := 100, cmdLength := 2 } : AppHeadFrame).h2n.toBytes ++ [7, 8]

/-- A router with two instances of the type 1, the second of which has lost its connection. -/
def twoInstances : RouterApplication where
  serverZone := 1
  severInstanceMgr := .after (some [⟨1, POLICY_RANDOM⟩]) [.login 1 7 (M_TCP_FD_FLAG + 5),
    .login 1 8 (M_TCP_FD_FLAG + 6)]
  transferInfoVec := []
  netIoHandler := { tcpSocketContainer := [M_TCP_FD_FLAG + 5], tcpConnectorContainer := [] }

/-- What the router sends when it receives `toAll`. -/
def twoSends : List Sent := (consumMsg [M_TCP_FD_FLAG + 5] (twoInstances.onProc 0) (M_TCP_FD_FLAG + 5) (toAll ++ [])).sends

theorem transparent_two : twoSends.map (fun s => (s.fd, s.handed)) = [(M_TCP_FD_FLAG + 5, some toAll),
    (M_TCP_FD_FLAG + 6, none)] ∧
    ∀ s ∈ twoSends, (∀ bytes, s.handed = some bytes → bytes = toAll) ∧ ofBytes s.mem = (ofBytes toAll).n2h ∧
      s.mem.drop size = (toAll ++ []).drop size :=
  ⟨by decide +kernel, transparent twoInstances _ 0 _ toAll [] (by decide +kernel) (by decide +kernel)⟩

end RouterApplication

/-! ## Ranges -/

/-- The applications: one that hands every message to its transactions, or the router. -/
inductive Application where
  | transactions
  | router (r : RouterApplication)

def Application.callback (parses : Nat) : Application → Callback
  | .transactions => processFrame parses
  | .router r => r.onProc parses

namespace Handling

theorem callback_keeps {P : Handling → Prop} {dataLen : UInt32} (hparse : ∀ t, P t → P (t.parseMsg size))
    (hsend : ∀ t nio dest fd, P t → P (t.send nio dest fd 0 (RouterApplication.srcLen dataLen))) (a : Application)
    (parses : Nat)
    (fd : Int) {t : Handling} (h : P t) : P (a.callback parses fd size dataLen t) := by
  have hiter : ∀ n, P ((parseMsg size)^[n] t) := by
    intro n
    induction n with
    | zero => exact h
    | succ n ih =>
      rw [Function.iterate_succ_apply']
      exact hparse _ ih
  cases a with
  | transactions => exact hiter parses
  | router r =>
    have hone : ∀ (t : Handling) svrType id, P t → P (r.forwardPkg svrType id size dataLen t) := by
      intro t svrType id ht
      unfold RouterApplication.forwardPkg
      simp only [Nat.sub_self]
      split
      · exact hsend _ _ _ _ ht
      · exact ht
    simp only [Application.callback, RouterApplication.onProc]
    split
    · exact hiter parses
    · split
      · split
        · exact hone _ _ _ h
        · exact List.foldlRecOn _ _ h fun t ht id _ => hone t _ id ht
      · exact List.foldlRecOn _ _ h fun t ht fd _ => by
          simpa using hsend t r.netIoHandler .transfer fd ht

/-- The ranges that are used lie inside the first `n` bytes. -/
def Inside (n : Nat) (t : Handling) : Prop := ∀ x ∈ t.ranges, x.off + x.len ≤ n

end Handling

open Handling

/-- A message's ranges lie inside its payload if and only if the message is dropped, since its connection is
gone, or the payload has room for the frame and for as much as the frame announces. -/
theorem inbound_inside (a : Application) (container : List Int) (parses : Nat) (fd : Int)
    (payload junk : List UInt8) :
    Inside payload.length (consumMsg container (a.callback parses) fd (payload ++ junk)) ↔
      (fd ∈ container → size + (ofBytes payload).n2h.cmdLength.toNat ≤ payload.length) := by
  unfold consumMsg
  by_cases hfd : fd ∈ container
  · simp only [hfd, if_true, forall_const]
    constructor
    · intro h
      have used : ∀ x : Range, x ∈ [(⟨0, size⟩ : Range), ⟨size, (ofBytes (payload ++ junk)).n2h.cmdLength.toNat⟩] →
          x.off + x.len ≤ payload.length := by
        intro x hx
        refine h x (callback_keeps (P := fun t => x ∈ t.ranges) ?_ ?_ a parses fd (by simpa [use] using hx))
        · exact fun t ht => List.mem_append_left _ ht
        · exact fun t nio dest fd ht => List.mem_append_left _ ht
      have hp : size ≤ payload.length := by simpa using used ⟨0, size⟩ (by simp)
      have hbody := used ⟨size, (ofBytes (payload ++ junk)).n2h.cmdLength.toNat⟩ (by simp)
      rwa [ofBytes_append hp] at hbody
    · intro hlen
      have hp : size ≤ payload.length := by omega
      rw [ofBytes_append hp]
      refine (callback_keeps (P := fun t => Inside payload.length t ∧ size ≤ t.mem.length ∧
        (ofBytes t.mem).cmdLength = (ofBytes payload).n2h.cmdLength) ?_ ?_ a parses fd ⟨?_, ?_, ?_⟩).1
      · rintro t ⟨hin, hm, hc⟩
        refine ⟨fun x hx => ?_, hm, hc⟩
        rcases List.mem_append.mp hx with hx | hx
        · exact hin x hx
        · rw [List.mem_singleton.mp hx, hc]
          exact hlen
      · rintro t nio dest fd ⟨hin, hm, hc⟩
        have hmem : (t.send nio dest fd 0 (RouterApplication.srcLen (ofBytes payload).n2h.cmdLength)).mem = t.mem :=
          sendDataByFd_mem nio hm fd (RouterApplication.srcLen (ofBytes payload).n2h.cmdLength)
        refine ⟨fun x hx => ?_, by rwa [hmem], by rwa [hmem]⟩
        rcases List.mem_append.mp hx with hx | hx
        · exact hin x hx
        · simp only [List.mem_cons, List.not_mem_nil, or_false] at hx
          rcases hx with rfl | rfl
          · simpa using hp
          · simp only [RouterApplication.srcLen, i32]
            omega
      · intro x hx
        simp only [use, List.singleton_append, List.mem_cons, List.not_mem_nil, or_false] at hx
        rcases hx with rfl | rfl
        · simpa using hp
        · exact hlen
      · simp [use, write_toBytes]
      · simp only [use, ofBytes_write]
  · simp [hfd, Inside]

/-- A frame that announces a body of 100 bytes, and no body. -/
def noBody : List UInt8 := ({ cmd := 100, cmdLength := 100 } : AppHeadFrame).h2n.toBytes

/-- The callback is given 100 bytes of which none has been received. -/
theorem inbound_outside : ¬ Inside noBody.length (consumMsg [M_TCP_FD_FLAG + 5] (Application.transactions.callback 1)
    (M_TCP_FD_FLAG + 5) (noBody ++ List.replicate 462 0)) := by
  intro h
  have hr := h ⟨size, 100⟩ (by decide +kernel)
  simp [noBody, size] at hr

end GlobalServer
