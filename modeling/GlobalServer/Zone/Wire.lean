import GlobalServer.Zone.Routing

/-!
# The bytes of a message

Between a server and a router a message is its frame in network order and its
body. The router's `OnProc` works on these bytes: where it hands some to a
connection, they are the bytes that have come, and the connections are those
that the message is put on in a step of the zone.
-/

namespace GlobalServer.Zone

open Bytes AppHeadFrame RouterApplication

variable {ι κ : Type} {c : ι → App.Config} {z : Zone ι κ}

/-- A message as `SendMsgByFd` and `SendDataByFd` write it. -/
def payload (frame : AppHeadFrame) (data : List UInt8) : List UInt8 := frame.h2n.toBytes ++ data

theorem frame_payload (frame : AppHeadFrame) (data : List UInt8) : (ofBytes (payload frame data)).n2h = frame := by
  rw [payload, ofBytes_toBytes, n2h_h2n]

theorem length_payload (frame : AppHeadFrame) (data : List UInt8) : (payload frame data).length = size + data.length := by
  simp [payload]

/-- A message is put where its bytes are handed to the connection of an instance. -/
def handed (j : κ) (p : Packet) (z : Zone ι κ) (s : Sent) : Zone ι κ :=
  match s.dest, s.handed, (z.router j).table s.fd with
  | .inst _ _, some _, some k => z.push k (Link.pushDown p)
  | _, _, _ => z

theorem consum_sends (r : Router) (nio : NetIoHandler) {fd : Int} (hfd : fd ∈ nio.tcpSocketContainer) (parses : Nat)
    (frame : AppHeadFrame) (data junk : List UInt8) :
    (nio.consumTcpSocketMsg ((r.application nio).onProc parses) fd (payload frame data ++ junk)).sends =
      (r.application nio).sendsTo frame.cmdLength (write (payload frame data ++ junk) 0 frame.toBytes) (r.dests frame) := by
  have hframe : (ofBytes (payload frame data ++ junk)).n2h = frame := by
    rw [ofBytes_append (by simp [length_payload]), frame_payload]
  unfold NetIoHandler.consumTcpSocketMsg
  rw [RouterApplication.consumMsg_sends, if_pos hfd, hframe]
  rfl

theorem Inv.dest_table (h : Inv c z) {j : κ} {frame : AppHeadFrame} {d : Dest × Int} (hd : d ∈ (z.router j).dests frame)
    {t : UInt32} {id : Int} (hdst : d.1 = .inst t id) : checkIsTcpFd d.2 = true ∧ ∃ k, (z.router j).table d.2 = some k := by
  rcases mem_dests hd with htr | ⟨id', rfl, h0, -⟩
  · rw [hdst] at htr
    cases htr
  · obtain ⟨k, -, ht, -, -⟩ := h.registry j _ h0
    exact ⟨(h.table j _ k ht).1, k, ht⟩

section
variable {j : κ} {nio : NetIoHandler} (hnio : ∀ fd k, (z.router j).table fd = some k → fd ∈ nio.tcpSocketContainer)
include hnio

theorem handed_of_table {fd : Int} (hfd : checkIsTcpFd fd = true) {k : Nat} (ht : (z.router j).table fd = some k)
    (mem : List UInt8) (len : Int) : (nio.sendDataByFd mem fd 0 len).2 ≠ none := by
  simp [NetIoHandler.sendDataByFd, hfd, hnio fd k ht]

theorem foldl_handed (h : Inv c z) (p : Packet) (len : UInt32) (mem : List UInt8) : ∀ (ds : List (Dest × Int)) (z' : Zone ι κ),
    z'.router = z.router → (∀ d ∈ ds, d ∈ (z.router j).dests p.frame) →
    (((z.router j).application nio).sendsTo len mem ds).foldl (handed j p) z' = ds.foldl (hand j p) z'
  | [], _, _, _ => rfl
  | d :: ds, z', hz, hd => by
    have hstep : handed j p z'
        { dest := d.1, fd := d.2, handed := (nio.sendDataByFd mem d.2 0 (srcLen len)).2, mem } = hand j p z' d := by
      unfold handed hand
      rw [hz]
      cases hdst : d.1 with
      | transfer => rfl
      | inst t id =>
        obtain ⟨hfd, k, ht⟩ := h.dest_table (hd d List.mem_cons_self) hdst
        obtain ⟨bytes, hb⟩ := Option.ne_none_iff_exists'.mp (handed_of_table hnio hfd ht mem (srcLen len))
        simp only [ht, hb]
    have ih := foldl_handed h p len mem ds (hand j p z' d) (by rw [hand_router, hz]) fun d' hd' =>
      hd d' (List.mem_cons_of_mem d hd')
    rw [RouterApplication.sendsTo, List.map_cons, List.foldl_cons, List.foldl_cons, ← ih, RouterApplication.sendsTo]
    exact congrArg (List.foldl (handed j p) · _) hstep

end

/-- A step of the zone puts a message exactly where `OnProc` hands its bytes to a connection, whatever lies behind them, and
to each of them it hands just these. -/
theorem route_bytes [DecidableEq ι] [DecidableEq κ] {routers : κ → Router} {t : List (Op ι κ)} (h : Run c routers t z)
    {j : κ} {fd : Int} {k : Nat} {l : Link ι κ} {p : Packet} {up : List Packet} (ht : (z.router j).table fd = some k)
    (hl : z.link k = some l) (hu : l.up = p :: up) (hcmd : p.frame.cmd ∉ baseCmds) :
    ∃ data, p.body = .bytes data ∧ ∀ (nio : NetIoHandler) (junk : List UInt8) (parses : Nat),
      size + data.length ≤ M_SOCKET_PACK_SIZE →
      (∀ fd k, (z.router j).table fd = some k → fd ∈ nio.tcpSocketContainer) →
      let sends := (nio.consumTcpSocketMsg (((z.router j).application nio).onProc parses) fd (payload p.frame data ++ junk)).sends
      z.step (.route k) = some (sends.foldl (handed j p) (z.setLink k { l with up })) ∧
        ∀ s ∈ sends, ∀ svrType id, s.dest = .inst svrType id → s.handed = some (payload p.frame data) := by
  have hi := run_inv h
  obtain ⟨data, hbody, hlen⟩ : ∃ data, p.body = .bytes data ∧ data.length = p.frame.cmdLength.toNat := by
    cases hi.up k l hl p (by simp [hu]) with
    | message hg hc =>
      obtain ⟨x, hx, hp⟩ := hg
      exact (hi.gave l.server x hx p hp).body
    | regist hc hb => exact absurd (hc ▸ register_base) hcmd
  refine ⟨data, hbody, ?_⟩
  intro nio junk parses hmax hnio sends
  have hsends : sends = _ := consum_sends (z.router j) nio (hnio fd k ht) parses p.frame data junk
  constructor
  · rw [hsends, foldl_handed hnio hi p _ _ _ (z.setLink k { l with up }) rfl fun d hd => hd]
    obtain ⟨-, l', hl', hj, hside⟩ := hi.table j fd k ht
    obtain rfl := Option.some.inj (hl.symm.trans hl')
    subst hj
    simp [step, stepRoute, hl, hside, Side.fd, ht, hu, forward]
  · intro s hs svrType id hdst
    have hframe : (ofBytes (payload p.frame data)).n2h = p.frame := frame_payload p.frame data
    have hbytes := (RouterApplication.transparent ((z.router j).application nio) nio.tcpSocketContainer parses fd
      (payload p.frame data) junk (by rw [hframe, length_payload, hlen]) (by rw [length_payload]; exact hmax) s hs).1
    rw [hsends] at hs
    obtain ⟨d, hd, rfl⟩ := List.mem_map.mp hs
    obtain ⟨hfd, k', ht'⟩ := hi.dest_table hd hdst
    obtain ⟨bytes, hb⟩ := Option.ne_none_iff_exists'.mp (handed_of_table hnio hfd ht' _ _)
    exact hb.trans (congrArg some (hbytes bytes hb))

theorem route_bytes_two : ∃ z l, Run twoServers oneRouter asking z ∧ z.link 0 = some l ∧ ∃ data, askPacket.body = .bytes data ∧
    ∀ (nio : NetIoHandler) (junk : List UInt8) (parses : Nat), size + data.length ≤ M_SOCKET_PACK_SIZE →
      (∀ fd k, (z.router ()).table fd = some k → fd ∈ nio.tcpSocketContainer) →
      let sends := (nio.consumTcpSocketMsg (((z.router ()).application nio).onProc parses) (M_TCP_FD_FLAG + 5)
        (payload askFrame data ++ junk)).sends
      z.step (.route 0) = some (sends.foldl (handed () askPacket) (z.setLink 0 { l with up := [] })) ∧
        ∀ s ∈ sends, ∀ svrType id, s.dest = .inst svrType id → s.handed = some (payload askFrame data) := by
  have h : (replay twoServers oneRouter asking).map (fun z =>
      ((z.router ()).table (M_TCP_FD_FLAG + 5), (z.link 0).map Link.up)) = some (some 0, some [askPacket]) := by
    decide +kernel
  obtain ⟨z, hz, h⟩ := Option.map_eq_some_iff.mp h
  obtain ⟨ht, hlink⟩ := Prod.mk.inj h
  obtain ⟨l, hl, hu⟩ := Option.map_eq_some_iff.mp hlink
  exact ⟨z, l, replay_run hz, hl, route_bytes (replay_run hz) ht hl hu (by decide)⟩

end GlobalServer.Zone
