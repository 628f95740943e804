import GlobalServer.Router.PeersReload
import GlobalServer.Transfer.InstMgr

/-!
# What a reload of the transfers does

Of two transfers that start, the one with the smaller number connects to the
other. In a running one the entries of the table are compared with those of
the configuration by address and id, and the zone is left out.
-/

namespace GlobalServer

/-- What tells transfers from one another. -/
structure TransferId where
  zone : Int32
  instId : Int32
  ip : String
  port2 : UInt32
  deriving DecidableEq

def TransferSvrInfo.id (e : TransferSvrInfo) : TransferId :=
  { zone := e.zone, instId := e.instId, ip := e.ip, port2 := e.port }

def ConfigTransferInfo.id (i : ConfigTransferInfo) : TransferId :=
  { zone := i.svrZone, instId := i.instId, ip := i.listenIp, port2 := .ofInt i.listenPort2.toInt }

namespace TransferInstanceMgr

variable {m : TransferInstanceMgr} {items : List ConfigTransferInfo} {o : UnordMap.Order TransferSvrInfo}
  {parse : String → Option (List ConfigTransferInfo)}

theorem reload_ok (hf : m.transferFile ≠ "") (hp : parse m.transferFile = some items) (h : (m.reload parse o).2 = 0) :
    (items.map fun i => i.key).Nodup ∧ (m.reload parse o).1 = m.connectTransfers items o := by
  obtain ⟨hd, he⟩ := reloadFile_ok hf hp h
  exact ⟨((distinctIds_iff [] _).mp hd).1, he⟩

/-! ## Who connects -/

def StartsConnection (m : TransferInstanceMgr) (parse : String → Option (List ConfigTransferInfo))
    (o : UnordMap.Order TransferSvrInfo) (peer : ConfigTransferInfo) : Prop :=
  ∃ call, m.dial peer = some call ∧ call ∈ (m.reload parse o).1.2

theorem start_connects_iff {file : String} {zone instId : Int32} {peer : ConfigTransferInfo} (hf : file ≠ "")
    (hp : parse file = some items) (h : ((start file zone instId).reload parse o).2 = 0) (hpeer : peer ∈ items)
    (hne : peer.key ≠ (zone, instId)) : StartsConnection (start file zone instId) parse o peer ↔
      transferSeq zone instId < transferSeq peer.svrZone peer.instId := by
  have he := (reload_ok (m := start file zone instId) hf hp h).2
  have hdials : (start file zone instId).dials peer = true ↔
      transferSeq zone instId < transferSeq peer.svrZone peer.instId := by
    simp only [dials, start, existTransfer, List.any_nil, Bool.not_false, Bool.and_true]
    exact decide_eq_true_iff
  unfold StartsConnection
  rw [he]
  constructor
  · rintro ⟨call, hc, -⟩
    unfold dial at hc
    split at hc
    · rename_i hd
      exact hdials.mp hd.2
    · cases hc
  · intro hlt
    have hd : (start file zone instId).dial peer =
        some (.connectOne peer.listenIp (.ofInt peer.listenPort2.toInt) Enum_ConnType_Transfer2 peer.instId) :=
      if_pos ⟨hne, hdials.mpr hlt⟩
    exact ⟨_, hd, List.mem_append_left _ (List.mem_filterMap.mpr ⟨peer, hpeer, hd⟩)⟩

def ExactlyOne (p q : Prop) : Prop := p ∧ ¬ q ∨ ¬ p ∧ q

/-- Of two transfers that load a configuration with both of them exactly one connects to the other if and only if
their numbers differ. -/
theorem initiator_iff {fileA fileB : String} {parseA parseB : String → Option (List ConfigTransferInfo)}
    {oA oB : UnordMap.Order TransferSvrInfo} {a b : ConfigTransferInfo} (ha : a ∈ items) (hb : b ∈ items)
    (hab : a.key ≠ b.key) (hfA : fileA ≠ "") (hfB : fileB ≠ "") (hpA : parseA fileA = some items)
    (hpB : parseB fileB = some items) (hA : ((start fileA a.svrZone a.instId).reload parseA oA).2 = 0)
    (hB : ((start fileB b.svrZone b.instId).reload parseB oB).2 = 0) :
    ExactlyOne (StartsConnection (start fileA a.svrZone a.instId) parseA oA b)
      (StartsConnection (start fileB b.svrZone b.instId) parseB oB a) ↔
    transferSeq a.svrZone a.instId ≠ transferSeq b.svrZone b.instId := by
  rw [start_connects_iff hfA hpA hA hb (Ne.symm hab), start_connects_iff hfB hpB hB ha hab]
  simp only [ExactlyOne, Int32.lt_iff_toInt_lt, ne_eq, ← Int32.toInt_inj]
  omega

def twoTransfers : List ConfigTransferInfo :=
  [{ listenIp := "10.0.0.1", listenPort := 9011, instId := 1, svrZone := 1, listenPort2 := 9012 },
    { listenIp := "10.0.0.2", listenPort := 9021, instId := 2, svrZone := 1, listenPort2 := 9022 }]

theorem initiator_iff_two :
    ExactlyOne (StartsConnection (start "a" 1 1) (fun _ => some twoTransfers) (.id _) (twoTransfers[1]))
      (StartsConnection (start "b" 1 2) (fun _ => some twoTransfers) (.id _) (twoTransfers[0])) :=
  (initiator_iff (show twoTransfers[0] ∈ twoTransfers by decide) (show twoTransfers[1] ∈ twoTransfers by decide)
    (by decide) (by decide) (by decide) rfl rfl (by decide) (by decide)).mpr (by decide)

/-- Transfer 1000000 of zone 0 and transfer 0 of zone 1 -/
def sameSeq : List ConfigTransferInfo :=
  [{ listenIp := "10.0.0.1", listenPort := 9001, instId := 1000000, svrZone := 0, listenPort2 := 9002 },
    { listenIp := "10.0.0.2", listenPort := 9001, instId := 0, svrZone := 1, listenPort2 := 9002 }]

/-- The two have the same number, and neither connects to the other. -/
theorem same_seq_neither_connects :
    ((start "a" 0 1000000).reload (fun _ => some sameSeq) (.id _)).2 = 0 ∧
    ((start "b" 1 0).reload (fun _ => some sameSeq) (.id _)).2 = 0 ∧
    ¬ ExactlyOne (StartsConnection (start "a" 0 1000000) (fun _ => some sameSeq) (.id _) (sameSeq[1]))
      (StartsConnection (start "b" 1 0) (fun _ => some sameSeq) (.id _) (sameSeq[0])) := by
  refine ⟨by decide, by decide, ?_⟩
  rw [start_connects_iff (by decide) (show _ = some sameSeq from rfl) (by decide) (by decide) (by decide),
    start_connects_iff (by decide) (show _ = some sameSeq from rfl) (by decide) (by decide) (by decide)]
  unfold ExactlyOne
  decide

/-! ## The table after a reload -/

/-- What a reload is to do: the table holds the configured transfers but the server itself, each once; those that
were there keep their state, the others are offline and have no descriptor, and those that are gone are closed. -/
structure Reloaded (m : TransferInstanceMgr) (items : List ConfigTransferInfo) (m' : TransferInstanceMgr)
    (calls : List NetCall) : Prop where
  transfers : ∀ t, (∃ e ∈ m'.zoneTransferMap.entries, e.id = t) ↔ ∃ i ∈ items, i.key ≠ m.self ∧ i.id = t
  once : m'.zoneTransferMap.Sound m.self
  kept : ∀ e ∈ m'.zoneTransferMap.entries, ∀ x ∈ m.zoneTransferMap.entries, x.id = e.id →
    e.fd = x.fd ∧ e.online = x.online ∧ e.active = x.active
  new : ∀ e ∈ m'.zoneTransferMap.entries, (∀ x ∈ m.zoneTransferMap.entries, x.id ≠ e.id) → e.fd = 0 ∧ e.online = false
  closed : ∀ fd, .closeFd fd ∈ calls ↔
    ∃ x ∈ m.zoneTransferMap.entries, (∀ i ∈ items, i.key ≠ m.self → i.id ≠ x.id) ∧ x.fd = fd

/-- No transfer of the table is configured with its address and id for other zones only. -/
def Stays (m : TransferInstanceMgr) (items : List ConfigTransferInfo) : Prop :=
  ∀ x ∈ m.zoneTransferMap.entries, listed items x = true → ∃ i ∈ items, i.id = x.id

instance (m : TransferInstanceMgr) (items : List ConfigTransferInfo) : Decidable (m.Stays items) :=
  inferInstanceAs (Decidable (∀ x ∈ m.zoneTransferMap.entries, listed items x = true → ∃ i ∈ items, i.id = x.id))

theorem key_of_id {e : TransferSvrInfo} {i : ConfigTransferInfo} (h : i.id = e.id) : i.key = e.key := by
  simp only [ConfigTransferInfo.id, TransferSvrInfo.id, TransferId.mk.injEq] at h
  simp only [ConfigTransferInfo.key, TransferSvrInfo.key, h.1, h.2.1]

theorem listed_of_id {e : TransferSvrInfo} {i : ConfigTransferInfo} (hi : i ∈ items) (h : i.id = e.id) :
    listed items e = true := by
  simp only [ConfigTransferInfo.id, TransferSvrInfo.id, TransferId.mk.injEq] at h
  simp only [listed, List.any_eq_true, Bool.and_eq_true, decide_eq_true_eq]
  exact ⟨i, hi, ⟨h.2.2.1.symm, h.2.2.2.symm⟩, h.2.1.symm⟩

theorem entry_inj {x y : TransferSvrInfo} (hx : x ∈ m.zoneTransferMap.entries) (hy : y ∈ m.zoneTransferMap.entries)
    (h : x.key = y.key) : x = y :=
  List.inj_on_of_nodup_map (List.pairwise_map.mpr m.sound.once) hx hy h

theorem mem_connectTransfers {e : TransferSvrInfo} : e ∈ (m.connectTransfers items o).1.zoneTransferMap.entries ↔
    ∃ l₁ l₂, m.assigned items = l₁ ++ (e.key, e) :: l₂ ∧ ∀ y ∈ l₂, y.1 ≠ e.key := by
  have hspec := (UnordMap.ofList_spec (m.assigned items)).2
  simp only [connectTransfers]
  rw [(ZoneTransferMap.ofEntries_spec _).2.mem_iff, (o.perm _).mem_iff, List.mem_map]
  constructor
  · rintro ⟨⟨k, e⟩, he, rfl⟩
    obtain ⟨l₁, l₂, heq, hl⟩ := (hspec _).mp he
    have hk : k = e.key := (mem_assigned.mp (heq ▸ List.mem_append_right l₁ (List.mem_cons_self (l := l₂)))).1
    subst hk
    exact ⟨l₁, l₂, heq, hl⟩
  · intro h
    exact ⟨(e.key, e), (hspec _).mpr h, rfl⟩

theorem listed_stays {e : TransferSvrInfo} (he : e ∈ m.zoneTransferMap.entries) (hl : listed items e = true) :
    e ∈ (m.connectTransfers items o).1.zoneTransferMap.entries := by
  rw [mem_connectTransfers]
  obtain ⟨l₁, l₂, heq⟩ := List.append_of_mem (List.mem_filter.mpr ⟨he, hl⟩)
  refine ⟨((items.filter fun i => i.key ≠ m.self).map m.newInfo ++ l₁).map fun e => (e.key, e),
    l₂.map fun e => (e.key, e),
    by simp [assigned, heq], fun y hy => ?_⟩
  obtain ⟨z, hz, rfl⟩ := List.mem_map.mp hy
  have hs := m.sound.once.filter (listed items)
  rw [heq] at hs
  exact Ne.symm ((List.pairwise_cons.mp (List.pairwise_append.mp hs).2.1).1 z hz)

theorem stays_of_reloaded {calls : List NetCall} (h : Reloaded m items (m.connectTransfers items o).1 calls) :
    m.Stays items := by
  intro x hx hl
  obtain ⟨i, hi, -, he⟩ := (h.transfers x.id).mp ⟨x, listed_stays hx hl, rfl⟩
  exact ⟨i, hi, he⟩

section
variable (hd : (items.map fun i => i.key).Nodup) (hs : m.Stays items)
include hd hs

/-- The table holds the entries that are still configured and a new one for every other configured transfer. -/
theorem mem_table {e : TransferSvrInfo} : e ∈ (m.connectTransfers items o).1.zoneTransferMap.entries ↔
    (e ∈ m.zoneTransferMap.entries ∧ listed items e = true) ∨
      ∃ i ∈ items, i.key ≠ m.self ∧ m.newInfo i = e ∧ ∀ x ∈ m.zoneTransferMap.entries, x.id ≠ i.id := by
  constructor
  · intro he
    obtain ⟨l₁, l₂, heq, hl⟩ := mem_connectTransfers.mp he
    have hmem : (e.key, e) ∈ m.assigned items := by simp [heq]
    rcases (mem_assigned.mp hmem).2 with ⟨i, hi, hk, rfl⟩ | h
    · by_cases hx : ∃ x ∈ m.zoneTransferMap.entries, x.id = i.id
      · obtain ⟨x, hx, hid⟩ := hx
        have hkey : x.key = (m.newInfo i).key := (key_of_id hid.symm).symm
        -- the entry of the table is assigned to the same zone and id, and later
        have hlx := listed_stays (o := o) hx (listed_of_id hi hid.symm)
        have := entry_inj (m := (m.connectTransfers items o).1) hlx he hkey
        exact .inl ⟨this ▸ hx, this ▸ listed_of_id hi hid.symm⟩
      · exact .inr ⟨i, hi, hk, rfl, fun x hxm hid => hx ⟨x, hxm, hid⟩⟩
    · exact .inl h
  · rintro (⟨he, hl⟩ | ⟨i, hi, hk, rfl, hno⟩)
    · exact listed_stays he hl
    · rw [mem_connectTransfers]
      obtain ⟨l₁, l₂, heq⟩ := List.append_of_mem
        ((List.mem_filter (p := fun i => decide (i.key ≠ m.self))).mpr ⟨hi, decide_eq_true hk⟩)
      refine ⟨(l₁.map m.newInfo).map fun e => (e.key, e),
        (l₂.map m.newInfo ++ m.zoneTransferMap.entries.filter (listed items)).map fun e => (e.key, e),
        ?_, fun y hy hye => ?_⟩
      · rw [assigned, heq]
        simp
      obtain ⟨z, hz, rfl⟩ := List.mem_map.mp hy
      rcases List.mem_append.mp hz with hz | hz
      · obtain ⟨j, hj, rfl⟩ := List.mem_map.mp hz
        have hn := (List.filter_sublist (p := fun i => i.key ≠ m.self) (l := items)).map (fun i => i.key) |>.nodup hd
        rw [heq, List.map_append, List.map_cons] at hn
        have := (List.nodup_cons.mp (List.nodup_append.mp hn).2.1).1
        exact this (List.mem_map.mpr ⟨j, hj, hye⟩)
      · obtain ⟨hzm, hzl⟩ := List.mem_filter.mp hz
        obtain ⟨j, hj, hjz⟩ := hs z hzm hzl
        have hij : i = j := List.inj_on_of_nodup_map hd hi hj ((key_of_id hjz).trans hye).symm
        exact hno z hzm (hij ▸ hjz.symm)

theorem reloaded_of_stays : Reloaded m items (m.connectTransfers items o).1 (m.connectTransfers items o).2 := by
  have hself : ∀ {i : ConfigTransferInfo} {x : TransferSvrInfo}, x ∈ m.zoneTransferMap.entries → i.id = x.id →
      i.key ≠ m.self := fun hx hid => key_of_id hid ▸ m.sound.others _ hx
  refine ⟨fun t => ⟨?_, ?_⟩, (m.connectTransfers items o).1.sound, ?_, ?_, ?_⟩
  · rintro ⟨e, he, rfl⟩
    rcases (mem_table hd hs).mp he with ⟨he, hl⟩ | ⟨i, hi, hk, rfl, -⟩
    · obtain ⟨i, hi, hid⟩ := hs e he hl
      exact ⟨i, hi, hself he hid, hid⟩
    · exact ⟨i, hi, hk, rfl⟩
  · rintro ⟨i, hi, hk, rfl⟩
    by_cases hx : ∃ x ∈ m.zoneTransferMap.entries, x.id = i.id
    · obtain ⟨x, hx, hid⟩ := hx
      exact ⟨x, (mem_table hd hs).mpr (.inl ⟨hx, listed_of_id hi hid.symm⟩), hid⟩
    · exact ⟨m.newInfo i, (mem_table hd hs).mpr (.inr ⟨i, hi, hk, rfl, fun x hxm hid => hx ⟨x, hxm, hid⟩⟩), rfl⟩
  · intro e he x hx hid
    rcases (mem_table hd hs).mp he with ⟨he, -⟩ | ⟨i, -, -, rfl, hno⟩
    · have hkey : x.key = e.key := by
        simp only [TransferSvrInfo.id, TransferId.mk.injEq] at hid
        simp only [TransferSvrInfo.key, hid.1, hid.2.1]
      rw [entry_inj hx he hkey]
      exact ⟨rfl, rfl, rfl⟩
    · exact absurd hid (hno x hx)
  · intro e he hno
    rcases (mem_table hd hs).mp he with ⟨he, -⟩ | ⟨i, -, -, rfl, -⟩
    · exact absurd rfl (hno e he)
    · exact ⟨rfl, rfl⟩
  · intro fd
    have hcon : .closeFd fd ∉ items.filterMap m.dial := by
      simp only [List.mem_filterMap, not_exists, not_and]
      intro i _ h
      unfold dial at h
      split at h <;> cases h
    simp only [connectTransfers, List.mem_append, hcon, false_or, List.mem_map, List.mem_filter, NetCall.closeFd.injEq,
      Bool.not_eq_true', and_assoc]
    refine exists_congr fun x => and_congr_right fun hx => and_congr_left fun _ => ?_
    rw [← Bool.not_eq_true]
    refine ⟨fun hl i hi _ hid => hl (listed_of_id hi hid), fun h hl => ?_⟩
    obtain ⟨i, hi, hid⟩ := hs x hx hl
    exact h i hi (hself hx hid) hid

end

/-- A reload that succeeds does what it is to do exactly if no transfer of the table is configured with its address
and id for other zones only. -/
theorem transfers_reload_iff (hf : m.transferFile ≠ "") (hp : parse m.transferFile = some items)
    (h : (m.reload parse o).2 = 0) :
    Reloaded m items (m.reload parse o).1.1 (m.reload parse o).1.2 ↔ m.Stays items := by
  obtain ⟨hd, he⟩ := reload_ok hf hp h
  rw [he]
  constructor
  · exact stays_of_reloaded
  · exact fun hs => reloaded_of_stays hd hs

/-- Transfer 1 of zone 1, which is connected to transfer 2. -/
def connectedTransfer : TransferInstanceMgr :=
  { transferFile := "transfers", selfInstanceId := 1, selfServerZone := 1
    zoneTransferMap := [(1, [{ ip := "10.0.0.2", port := 9022, fd := 7, zone := 1, instId := 2, online := true, active := true }])]
    sound := ⟨by decide, by decide, by decide⟩ }

/-- Transfer 2 is gone, and there is a transfer 3 and one of zone 2. -/
def replacedTransfer : List ConfigTransferInfo :=
  [{ listenIp := "10.0.0.1", listenPort := 9011, instId := 1, svrZone := 1, listenPort2 := 9012 },
    { listenIp := "10.0.0.3", listenPort := 9031, instId := 3, svrZone := 1, listenPort2 := 9032 },
    { listenIp := "10.0.0.4", listenPort := 9041, instId := 1, svrZone := 2, listenPort2 := 9042 }]

theorem transfers_reload_iff_replaced :
    .closeFd 7 ∈ (connectedTransfer.reload (fun _ => some replacedTransfer) (.id _)).1.2 ∧
      Reloaded connectedTransfer replacedTransfer (connectedTransfer.reload (fun _ => some replacedTransfer) (.id _)).1.1
        (connectedTransfer.reload (fun _ => some replacedTransfer) (.id _)).1.2 :=
  ⟨by decide, (transfers_reload_iff (by decide) rfl (by decide)).mpr (by decide)⟩

def movedTransfer : List ConfigTransferInfo :=
  [{ listenIp := "10.0.0.1", listenPort := 9011, instId := 1, svrZone := 1, listenPort2 := 9012 },
    { listenIp := "10.0.0.2", listenPort := 9021, instId := 2, svrZone := 2, listenPort2 := 9022 }]

/-- It stays in the table under its old zone as well, and is not closed. -/
theorem moved_transfer_stays : (connectedTransfer.reload (fun _ => some movedTransfer) (.id _)).2 = 0 ∧
    ¬ Reloaded connectedTransfer movedTransfer (connectedTransfer.reload (fun _ => some movedTransfer) (.id _)).1.1
      (connectedTransfer.reload (fun _ => some movedTransfer) (.id _)).1.2 := by
  refine ⟨by decide, fun h => ?_⟩
  obtain ⟨i, hi, -, hid⟩ := (h.transfers { zone := 1, instId := 2, ip := "10.0.0.2", port2 := 9022 }).mp (by decide)
  revert i
  decide

end TransferInstanceMgr

end GlobalServer
