import GlobalServer.Router.Peers

/-!
# What a reload of the routers or the transfers does

The peers in the vector are compared with those of the configuration by
address and id. The first loop asks for the zone of the server as well, the
second one does not, and a port has 16 bits in the vector but 32 in the
configuration.
-/

namespace GlobalServer

/-- What tells the peers of a zone from one another. -/
structure Peer where
  ip : String
  port : Int
  instId : Int32
  deriving DecidableEq

def ConfigRouterInfo.peer (i : ConfigRouterInfo) : Peer :=
  { ip := i.listenIp, port := i.listenPort.toInt, instId := i.instId }

def PeerInfo.peer (x : PeerInfo) : Peer := { ip := x.ip, port := x.port.toNat, instId := x.instId }

def ConfigRouterInfo.PortOk (i : ConfigRouterInfo) : Prop := 0 ≤ i.listenPort.toInt ∧ i.listenPort.toInt < 2 ^ 16

instance (i : ConfigRouterInfo) : Decidable i.PortOk :=
  inferInstanceAs (Decidable (0 ≤ i.listenPort.toInt ∧ i.listenPort.toInt < 2 ^ 16))

theorem toNat_ofInt16 (x : Int) : ((UInt16.ofInt x).toNat : Int) = x % 2 ^ 16 := by
  simp only [UInt16.ofInt, UInt16.toNat_ofNat']
  omega

theorem port_eq_iff (p : Int32) (q : UInt16) : UInt32.ofInt p.toInt = q.toUInt32 ↔ p.toInt = q.toNat := by
  have h1 := p.le_toInt
  have h2 := p.toInt_lt
  have h3 := q.toNat_lt
  rw [← UInt32.toNat_inj]
  simp only [UInt32.ofInt, UInt32.toNat_ofNat', UInt16.toNat_toUInt32]
  omega

theorem distinctIds_iff {α : Type} [DecidableEq α] (seen ids : List α) :
    distinctIds seen ids = true ↔ ids.Nodup ∧ ∀ i ∈ ids, i ∉ seen := by
  induction ids generalizing seen with
  | nil => simp [distinctIds]
  | cons i ids ih =>
    unfold distinctIds
    by_cases hi : i ∈ seen
    · simp [hi]
    · rw [if_neg hi, ih]
      simp only [List.nodup_cons, List.mem_cons, not_or, forall_eq_or_imp]
      constructor
      · intro h
        exact ⟨⟨fun hm => (h.2 i hm).1 rfl, h.1⟩, hi, fun j hj => (h.2 j hj).2⟩
      · intro h
        exact ⟨h.1.2, fun j hj => ⟨fun e => h.1.1 (e ▸ hj), h.2.2 j hj⟩⟩

namespace PeerMgr

variable {m : PeerMgr} {items : List ConfigRouterInfo}

theorem exist_iff {i : ConfigRouterInfo} :
    m.exist i.listenIp (.ofInt i.listenPort.toInt) i.instId = true ↔ ∃ x ∈ m.infoVec, x.peer = i.peer := by
  simp only [exist, List.any_eq_true, Bool.and_eq_true, decide_eq_true_eq, port_eq_iff]
  refine exists_congr fun x => and_congr_right fun _ => ?_
  simp only [PeerInfo.peer, ConfigRouterInfo.peer, Peer.mk.injEq]
  constructor
  · intro h
    exact ⟨h.1.1.symm, h.1.2.symm, h.2.symm⟩
  · intro h
    exact ⟨⟨h.1.symm, h.2.1.symm⟩, h.2.2.symm⟩

theorem listed_iff {x : PeerInfo} : listed items x = true ↔ ∃ i ∈ items, i.peer = x.peer := by
  simp only [listed, List.any_eq_true, Bool.and_eq_true, decide_eq_true_eq]
  refine exists_congr fun i => and_congr_right fun _ => ?_
  simp only [PeerInfo.peer, ConfigRouterInfo.peer, Peer.mk.injEq]
  constructor
  · intro h
    exact ⟨h.1.1.symm, h.1.2.symm, h.2.symm⟩
  · intro h
    exact ⟨⟨h.1.symm, h.2.1.symm⟩, h.2.2.symm⟩

theorem isNew_iff {i : ConfigRouterInfo} :
    m.isNew i = true ↔ i.svrZone = m.selfServerZone ∧ ∀ x ∈ m.infoVec, x.peer ≠ i.peer := by
  simp only [isNew, Bool.and_eq_true, decide_eq_true_eq, Bool.not_eq_true', ← Bool.not_eq_true, exist_iff]
  simp

theorem newInfo_peer {i : ConfigRouterInfo} (h : i.PortOk) : (newInfo i).peer = i.peer := by
  simp only [newInfo, PeerInfo.peer, ConfigRouterInfo.peer, Peer.mk.injEq, toNat_ofInt16, true_and, and_true]
  exact Int.emod_eq_of_lt h.1 h.2

theorem instId_inj {x y : PeerInfo} (hx : x ∈ m.infoVec) (hy : y ∈ m.infoVec) (h : x.instId = y.instId) : x = y := by
  have hn : (m.infoVec.map PeerInfo.instId).Nodup := by
    refine List.pairwise_map.mpr (m.sorted.imp fun {a b} hlt he => ?_)
    rw [he] at hlt
    exact Int.lt_irrefl _ hlt
  exact List.inj_on_of_nodup_map hn hx hy h

/-- An entry is there after the loops if it was the last to be assigned to its id. -/
theorem mem_connectPeers {connType : Int} {x : PeerInfo} : x ∈ (m.connectPeers connType items).1.infoVec ↔
    ∃ l₁ l₂, m.assigned items = l₁ ++ (x.instId.toInt, x) :: l₂ ∧ ∀ y ∈ l₂, y.1 ≠ x.instId.toInt := by
  have hspec := (OrdMap.ofList_spec (m.assigned items)).2
  simp only [connectPeers, List.mem_map]
  constructor
  · rintro ⟨⟨k, x⟩, hx, rfl⟩
    have h := (hspec _).mp hx
    obtain ⟨l₁, l₂, he, hl⟩ := h
    have hk : k = x.instId.toInt := (mem_assigned.mp (he ▸ List.mem_append_right l₁ (List.mem_cons_self (l := l₂)))).1
    subst hk
    exact ⟨l₁, l₂, he, hl⟩
  · intro h
    exact ⟨(x.instId.toInt, x), (hspec _).mpr h, rfl⟩

theorem listed_stays {connType : Int} {x : PeerInfo} (hx : x ∈ m.infoVec) (hl : listed items x = true) :
    x ∈ (m.connectPeers connType items).1.infoVec := by
  rw [mem_connectPeers]
  obtain ⟨l₁, l₂, he⟩ := List.append_of_mem (List.mem_filter.mpr ⟨hx, hl⟩)
  refine ⟨((items.filter m.isNew).map newInfo ++ l₁).map fun x => (x.instId.toInt, x),
    l₂.map fun x => (x.instId.toInt, x),
    by simp [assigned, he], fun y hy => ?_⟩
  obtain ⟨z, hz, rfl⟩ := List.mem_map.mp hy
  have hs := m.sorted.filter (listed items)
  rw [he] at hs
  have := (List.pairwise_cons.mp (List.pairwise_append.mp hs).2.1).1 z hz
  exact Int.ne_of_gt this

/-- What a reload is to do: the vector holds the configured peers of the zone in the order of their ids; those that
were there keep their descriptor, the others have none and are connected to, and those that are gone are closed. -/
structure Reloaded (connType : Int) (m : PeerMgr) (items : List ConfigRouterInfo) (m' : PeerMgr)
    (calls : List NetCall) : Prop where
  peers : ∀ p, (∃ x ∈ m'.infoVec, x.peer = p) ↔ ∃ i ∈ items, i.svrZone = m.selfServerZone ∧ i.peer = p
  ordered : m'.infoVec.Pairwise fun x y => x.instId.toInt < y.instId.toInt
  kept : ∀ x ∈ m'.infoVec, ∀ y ∈ m.infoVec, y.peer = x.peer → x.fd = y.fd
  new : ∀ x ∈ m'.infoVec, (∀ y ∈ m.infoVec, y.peer ≠ x.peer) → x.fd = 0
  calls : calls =
    ((items.filter fun i => i.svrZone = m.selfServerZone ∧ ∀ x ∈ m.infoVec, x.peer ≠ i.peer).map fun i =>
      .connectOne i.listenIp (.ofInt i.listenPort.toInt) connType i.instId) ++
    (m.infoVec.filter fun x => ∀ i ∈ items, i.svrZone = m.selfServerZone → i.peer ≠ x.peer).map fun x => .closeFd x.fd

/-- The ports of the zone's peers are ports, and no peer of the vector is configured for another zone only. -/
def Stays (m : PeerMgr) (items : List ConfigRouterInfo) : Prop :=
  (∀ i ∈ items, i.svrZone = m.selfServerZone → i.PortOk) ∧
    ∀ x ∈ m.infoVec, (∃ i ∈ items, i.peer = x.peer) → ∃ i ∈ items, i.svrZone = m.selfServerZone ∧ i.peer = x.peer

instance (m : PeerMgr) (items : List ConfigRouterInfo) : Decidable (m.Stays items) :=
  inferInstanceAs (Decidable (_ ∧ _))

theorem stays_of_reloaded {connType : Int} {calls : List NetCall}
    (h : Reloaded connType m items (m.connectPeers connType items).1 calls) : m.Stays items := by
  refine ⟨fun i hi hz => ?_, fun x hx hl => ?_⟩
  · obtain ⟨x, -, hx⟩ := (h.peers i.peer).mpr ⟨i, hi, hz, rfl⟩
    have hp : (x.port.toNat : Int) = i.listenPort.toInt := congrArg Peer.port hx
    have := x.port.toNat_lt
    exact ⟨by omega, by omega⟩
  · exact (h.peers x.peer).mp ⟨x, listed_stays hx (listed_iff.mpr hl), rfl⟩

section
variable (hd : ((items.filter fun i => i.svrZone = m.selfServerZone).map fun i => i.instId).Nodup) (hs : m.Stays items)
include hd

theorem item_inj {i j : ConfigRouterInfo} (hi : i ∈ items) (hj : j ∈ items) (hzi : i.svrZone = m.selfServerZone)
    (hzj : j.svrZone = m.selfServerZone) (h : i.instId = j.instId) : i = j :=
  List.inj_on_of_nodup_map hd (List.mem_filter.mpr ⟨hi, by simpa using hzi⟩) (List.mem_filter.mpr ⟨hj, by simpa using hzj⟩) h

include hs

theorem assigned_inj : (m.assigned items).Pairwise fun x y => x.1 ≠ y.1 := by
  have hne : ∀ {i j : Int32}, i ≠ j → i.toInt ≠ j.toInt := fun h e => h (Int32.toInt_inj.mp e)
  refine List.pairwise_map.mpr (List.pairwise_append.mpr ⟨?_, ?_, ?_⟩)
  · have hsub : (items.filter m.isNew).map (fun i => i.instId) |>.Nodup := by
      refine hd.sublist (List.Sublist.map _ ?_)
      have hfil : items.filter m.isNew = (items.filter fun i => i.svrZone = m.selfServerZone).filter m.isNew := by
        rw [List.filter_filter]
        refine List.filter_congr fun i _ => ?_
        by_cases hn : m.isNew i = true
        · simp [hn, (isNew_iff.mp hn).1]
        · simp [hn]
      rw [hfil]
      exact List.filter_sublist
    exact List.pairwise_map.mpr ((List.pairwise_map.mp hsub).imp hne)
  · exact (m.sorted.filter _).imp fun h => Int.ne_of_lt h
  · intro x hx y hy
    obtain ⟨i, hi, rfl⟩ := List.mem_map.mp hx
    obtain ⟨hi, hn⟩ := List.mem_filter.mp hi
    obtain ⟨hy, hl⟩ := List.mem_filter.mp hy
    obtain ⟨hz, hno⟩ := isNew_iff.mp hn
    obtain ⟨j, hj, hzj, hp⟩ := hs.2 y hy (listed_iff.mp hl)
    -- were the ids the same, the new peer would be the one of the vector
    refine hne fun he => hno y hy ?_
    have hij : i = j := item_inj hd hi hj hz hzj (he.trans (congrArg Peer.instId hp).symm)
    rw [hij, hp]

theorem mem_infoVec {connType : Int} {x : PeerInfo} : x ∈ (m.connectPeers connType items).1.infoVec ↔
    (∃ i ∈ items, m.isNew i = true ∧ newInfo i = x) ∨ x ∈ m.infoVec ∧ listed items x = true := by
  rw [mem_connectPeers, Assign.last_iff_mem (x := (x.instId.toInt, x)) (assigned_inj hd hs), mem_assigned]
  simp

theorem reloaded_of_stays (connType : Int) :
    Reloaded connType m items (m.connectPeers connType items).1 (m.connectPeers connType items).2 := by
  have hlisted : ∀ x ∈ m.infoVec,
      listed items x = true ↔ ∃ i ∈ items, i.svrZone = m.selfServerZone ∧ i.peer = x.peer := by
    intro x hx
    rw [listed_iff]
    constructor
    · exact hs.2 x hx
    · rintro ⟨i, hi, -, hp⟩
      exact ⟨i, hi, hp⟩
  refine ⟨fun p => ⟨?_, ?_⟩, m.sorted_assigned items, ?_, ?_, ?_⟩
  · rintro ⟨x, hx, rfl⟩
    rcases (mem_infoVec hd hs).mp hx with ⟨i, hi, hn, rfl⟩ | ⟨hx, hl⟩
    · have hz := (isNew_iff.mp hn).1
      exact ⟨i, hi, hz, (newInfo_peer (hs.1 i hi hz)).symm⟩
    · exact (hlisted x hx).mp hl
  · rintro ⟨i, hi, hz, rfl⟩
    by_cases hn : m.isNew i = true
    · exact ⟨newInfo i, (mem_infoVec hd hs).mpr (.inl ⟨i, hi, hn, rfl⟩), newInfo_peer (hs.1 i hi hz)⟩
    · simp only [isNew_iff, hz, true_and, not_forall, not_not] at hn
      obtain ⟨x, hx, hp⟩ := hn
      exact ⟨x, (mem_infoVec hd hs).mpr (.inr ⟨hx, listed_iff.mpr ⟨i, hi, hp.symm⟩⟩), hp⟩
  · intro x hx y hy hp
    rcases (mem_infoVec hd hs).mp hx with ⟨i, hi, hn, rfl⟩ | ⟨hx, -⟩
    · obtain ⟨hz, hno⟩ := isNew_iff.mp hn
      exact absurd (hp.trans (newInfo_peer (hs.1 i hi hz))) (hno y hy)
    · rw [instId_inj hx hy (congrArg Peer.instId hp).symm]
  · intro x hx hno
    rcases (mem_infoVec hd hs).mp hx with ⟨i, -, -, rfl⟩ | ⟨hx, -⟩
    · rfl
    · exact absurd rfl (hno x hx)
  · simp only [connectPeers]
    have hnew : items.filter m.isNew =
        items.filter fun i => i.svrZone = m.selfServerZone ∧ ∀ x ∈ m.infoVec, x.peer ≠ i.peer :=
      List.filter_congr fun i _ => by rw [Bool.eq_iff_iff, isNew_iff, decide_eq_true_eq]
    have hgone : (m.infoVec.filter fun x => !listed items x) =
        m.infoVec.filter fun x => ∀ i ∈ items, i.svrZone = m.selfServerZone → i.peer ≠ x.peer := by
      refine List.filter_congr fun x hx => ?_
      rw [Bool.eq_iff_iff, Bool.not_eq_true', ← Bool.not_eq_true, hlisted x hx, decide_eq_true_eq]
      push Not
      rfl
    rw [hnew, hgone]

end

theorem reload_ok {connType : Int} {parse : String → Option (List ConfigRouterInfo)} (hf : m.file ≠ "")
    (hp : parse m.file = some items) (h : (m.reload connType parse).2 = 0) :
    ((items.filter fun i => i.svrZone = m.selfServerZone).map fun i => i.instId).Nodup ∧
      (m.reload connType parse).1 = m.connectPeers connType items := by
  obtain ⟨hd, he⟩ := reloadFile_ok hf hp h
  exact ⟨((distinctIds_iff [] _).mp hd).1, he⟩

theorem reload_spec {connType : Int} {parse : String → Option (List ConfigRouterInfo)} (hf : m.file ≠ "")
    (hp : parse m.file = some items) (h : (m.reload connType parse).2 = 0) :
    Reloaded connType m items (m.reload connType parse).1.1 (m.reload connType parse).1.2 ↔ m.Stays items := by
  obtain ⟨hd, he⟩ := reload_ok hf hp h
  rw [he]
  constructor
  · exact stays_of_reloaded
  · exact fun hs => reloaded_of_stays hd hs connType

end PeerMgr

open PeerMgr

/-- A reload of the routers, or of the routersvr's transfers, that fails changes nothing and asks for nothing. One
that succeeds does what it is to do exactly if the ports of the zone's peers are ports and no peer of the vector is
configured for another zone only. -/
theorem peers_reload_iff (m : PeerMgr) (routers : String → Option (List ConfigRouterInfo))
    (transfers : String → Option (List ConfigTransferInfo)) :
    (((RouterMgr.reload m routers).2 ≠ 0 → (RouterMgr.reload m routers).1 = (m, [])) ∧
      ∀ items, m.file ≠ "" → routers m.file = some items → (RouterMgr.reload m routers).2 = 0 →
        (Reloaded Enum_ConnType_Router m items (RouterMgr.reload m routers).1.1 (RouterMgr.reload m routers).1.2 ↔
          m.Stays items)) ∧
    ((TransferMgr.reload m transfers).2 ≠ 0 → (TransferMgr.reload m transfers).1 = (m, [])) ∧
      ∀ items, m.file ≠ "" → transfers m.file = some items → (TransferMgr.reload m transfers).2 = 0 →
        (Reloaded Enum_ConnType_Transfer m (items.map (·.toConfigRouterInfo)) (TransferMgr.reload m transfers).1.1
          (TransferMgr.reload m transfers).1.2 ↔ m.Stays (items.map (·.toConfigRouterInfo))) := by
  refine ⟨⟨reloadFile_error, fun items hf hp h => reload_spec hf hp h⟩, reloadFile_error, fun items hf hp h => ?_⟩
  exact reload_spec hf (by rw [hp]; rfl) h

def onePeer : PeerMgr :=
  { file := "peers", selfServerZone := 1, infoVec := [{ ip := "10.0.0.1", port := 8001, instId := 5, fd := 7 }],
    sorted := by simp }

def movedPeer : List ConfigTransferInfo :=
  [{ listenIp := "10.0.0.1", listenPort := 8001, instId := 5, svrZone := 2, listenPort2 := 8002 }]

def secondPeer : List ConfigTransferInfo :=
  [{ listenIp := "10.0.0.1", listenPort := 8001, instId := 5, svrZone := 1, listenPort2 := 8002 },
    { listenIp := "10.0.0.2", listenPort := 8001, instId := 3, svrZone := 1, listenPort2 := 8002 }]

theorem peers_reload_iff_second :
    Reloaded Enum_ConnType_Router onePeer (secondPeer.map (·.toConfigRouterInfo))
      (RouterMgr.reload onePeer fun _ => some (secondPeer.map (·.toConfigRouterInfo))).1.1
      (RouterMgr.reload onePeer fun _ => some (secondPeer.map (·.toConfigRouterInfo))).1.2 ∧
    Reloaded Enum_ConnType_Transfer onePeer (secondPeer.map (·.toConfigRouterInfo))
      (TransferMgr.reload onePeer fun _ => some secondPeer).1.1 (TransferMgr.reload onePeer fun _ => some secondPeer).1.2 ∧
    (RouterMgr.reload onePeer fun _ => none).1 = (onePeer, []) :=
  ⟨((peers_reload_iff onePeer (fun _ => some _) fun _ => none).1.2 _ (by decide) rfl (by decide)).mpr (by decide),
    ((peers_reload_iff onePeer (fun _ => none) fun _ => some secondPeer).2.2 _ (by decide) rfl (by decide)).mpr
      (by decide),
    (peers_reload_iff onePeer (fun _ => none) fun _ => none).1.1 (by decide)⟩

/-- The peer that has moved to another zone stays in the vector, of either server, and is not closed. -/
theorem moved_peer_stays :
    (RouterMgr.reload onePeer fun _ => some (movedPeer.map (·.toConfigRouterInfo))).2 = 0 ∧
    ¬ Reloaded Enum_ConnType_Router onePeer (movedPeer.map (·.toConfigRouterInfo))
      (RouterMgr.reload onePeer fun _ => some (movedPeer.map (·.toConfigRouterInfo))).1.1
      (RouterMgr.reload onePeer fun _ => some (movedPeer.map (·.toConfigRouterInfo))).1.2 ∧
    (TransferMgr.reload onePeer fun _ => some movedPeer).2 = 0 ∧
    ¬ Reloaded Enum_ConnType_Transfer onePeer (movedPeer.map (·.toConfigRouterInfo))
      (TransferMgr.reload onePeer fun _ => some movedPeer).1.1 (TransferMgr.reload onePeer fun _ => some movedPeer).1.2 := by
  refine ⟨by decide, fun h => ?_, by decide, fun h => ?_⟩
  · exact absurd h.calls (by decide)
  · exact absurd h.calls (by decide)

end GlobalServer
