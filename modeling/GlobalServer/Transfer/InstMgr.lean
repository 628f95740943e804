import GlobalServer.Router.Peers

/-!
# The transfers a transfersvr knows

`TransferInstanceMgr` keeps the transfers of all zones but itself, for each
zone a vector. A reload assigns the configured transfers to a temporary map by
zone and id, then those of the table that are still configured, and makes the
table anew from it. Both maps are unordered.
-/

namespace GlobalServer

structure TransferSvrInfo where
  ip : String
  port : UInt32
  fd : Int
  zone : Int32
  instId : Int32
  online : Bool
  /-- whether the connection is made from here -/
  active : Bool
  deriving DecidableEq

/-- zone and id -/
def TransferSvrInfo.key (e : TransferSvrInfo) : Int32 × Int32 := (e.zone, e.instId)

/-- online, with a descriptor -/
def TransferSvrInfo.logIn (fd : Int) (e : TransferSvrInfo) : TransferSvrInfo := { e with online := true, fd }

def ConfigTransferInfo.key (i : ConfigTransferInfo) : Int32 × Int32 := (i.svrZone, i.instId)

/-- `_zone_transfer_map` as it is gone through -/
abbrev ZoneTransferMap := List (Int32 × List TransferSvrInfo)

namespace ZoneTransferMap

def entries (t : ZoneTransferMap) : List TransferSvrInfo := t.flatMap Prod.snd

/-- `_zone_transfer_map[e.zone].push_back(e)` -/
def pushBack (e : TransferSvrInfo) : ZoneTransferMap → ZoneTransferMap
  | [] => [(e.zone, [e])]
  | x :: t => if x.1 = e.zone then (x.1, x.2 ++ [e]) :: t else x :: pushBack e t

def ofEntries (l : List TransferSvrInfo) : ZoneTransferMap := l.foldl (fun t e => pushBack e t) []

/-- Every transfer is in the vector of its zone, and there once; `own` is not among them. -/
structure Sound (own : Int32 × Int32) (t : ZoneTransferMap) : Prop where
  zone : ∀ x ∈ t, ∀ e ∈ x.2, e.zone = x.1
  once : t.entries.Pairwise fun x y => x.key ≠ y.key
  others : ∀ e ∈ t.entries, e.key ≠ own

theorem entries_pushBack (e : TransferSvrInfo) (t : ZoneTransferMap) :
    (pushBack e t).entries.Perm (e :: t.entries) := by
  induction t with
  | nil => simp [pushBack, entries]
  | cons x t ih =>
    unfold pushBack
    split
    · simp only [entries, List.flatMap_cons, List.append_assoc]
      exact List.perm_middle
    · simp only [entries, List.flatMap_cons] at ih ⊢
      exact (ih.append_left x.2).trans List.perm_middle

theorem zone_pushBack {e : TransferSvrInfo} {t : ZoneTransferMap} (h : ∀ x ∈ t, ∀ y ∈ x.2, y.zone = x.1) :
    ∀ x ∈ pushBack e t, ∀ y ∈ x.2, y.zone = x.1 := by
  induction t with
  | nil => simp [pushBack]
  | cons x t ih =>
    unfold pushBack
    split
    · rename_i hz
      simp only [List.forall_mem_cons] at h ⊢
      refine ⟨fun y hy => ?_, h.2⟩
      rcases List.mem_append.mp hy with hy | hy
      · exact h.1 y hy
      · simp only [List.mem_singleton] at hy
        exact hy ▸ hz.symm
    · simp only [List.forall_mem_cons] at h ⊢
      exact ⟨h.1, ih h.2⟩

theorem ofEntries_spec (l : List TransferSvrInfo) :
    (∀ x ∈ ofEntries l, ∀ y ∈ x.2, y.zone = x.1) ∧ (ofEntries l).entries.Perm l := by
  induction l using List.reverseRecOn with
  | nil => simp [ofEntries, entries]
  | append_singleton l e ih =>
    have h : ofEntries (l ++ [e]) = pushBack e (ofEntries l) := by simp [ofEntries]
    rw [h]
    refine ⟨zone_pushBack ih.1, (entries_pushBack e _).trans ?_⟩
    exact (ih.2.cons e).trans (List.perm_append_singleton e l).symm

theorem sound_ofEntries {own : Int32 × Int32} {l : List TransferSvrInfo}
    (h : l.Pairwise fun x y => x.key ≠ y.key) (hown : ∀ e ∈ l, e.key ≠ own) : Sound own (ofEntries l) := by
  obtain ⟨hz, hp⟩ := ofEntries_spec l
  refine ⟨hz, ?_, fun e he => hown e (hp.mem_iff.mp he)⟩
  exact (hp.pairwise_iff fun h => Ne.symm h).mpr h

/-- One of the entries of a vector is written to. -/
def writeFirst (p : TransferSvrInfo → Bool) (f : TransferSvrInfo → TransferSvrInfo) :
    List TransferSvrInfo → List TransferSvrInfo
  | [] => []
  | e :: l => if p e then f e :: l else e :: writeFirst p f l

theorem writeFirst_keys {p : TransferSvrInfo → Bool} {f : TransferSvrInfo → TransferSvrInfo}
    (hf : ∀ e, (f e).key = e.key) (l : List TransferSvrInfo) :
    (writeFirst p f l).map TransferSvrInfo.key = l.map TransferSvrInfo.key := by
  induction l with
  | nil => rfl
  | cons e l ih =>
    unfold writeFirst
    split <;> simp [hf, ih]

theorem writeFirst_of_key {p : TransferSvrInfo → Bool} {f : TransferSvrInfo → TransferSvrInfo} {k : Int32 × Int32}
    (hp : ∀ e, p e = true ↔ e.key = k) {l : List TransferSvrInfo}
    (hl : l.Pairwise fun x y => x.key ≠ y.key) : ∀ e ∈ writeFirst p f l, e.key = k → ∃ e₀, e = f e₀ := by
  induction l with
  | nil => simp [writeFirst]
  | cons x l ih =>
    obtain ⟨hx, hl⟩ := List.pairwise_cons.mp hl
    intro e he hk
    unfold writeFirst at he
    split at he
    · rename_i hpx
      rcases List.mem_cons.mp he with rfl | he
      · exact ⟨x, rfl⟩
      · exact absurd (((hp x).mp hpx).trans hk.symm) (hx e he)
    · rename_i hpx
      rcases List.mem_cons.mp he with rfl | he
      · exact absurd ((hp e).mpr hk) hpx
      · exact ih hl e he hk

theorem Sound.sound_of_keys {own : Int32 × Int32} {t t' : ZoneTransferMap} (h : Sound own t)
    (hk : t'.map (fun x => (x.1, x.2.map TransferSvrInfo.key)) = t.map fun x => (x.1, x.2.map TransferSvrInfo.key)) :
    Sound own t' := by
  have hkeys : t'.entries.map TransferSvrInfo.key = t.entries.map TransferSvrInfo.key := by
    have := congrArg (List.flatMap Prod.snd) hk
    simpa [entries, List.flatMap_map, List.map_flatMap] using this
  refine ⟨fun x hx e he => ?_, ?_, fun e he => ?_⟩
  · have hx' : (x.1, x.2.map TransferSvrInfo.key) ∈ t.map fun x => (x.1, x.2.map TransferSvrInfo.key) :=
      hk ▸ List.mem_map.mpr ⟨x, hx, rfl⟩
    obtain ⟨y, hy, hxy⟩ := List.mem_map.mp hx'
    obtain ⟨h1, h2⟩ := Prod.mk.inj hxy
    have he' : e.key ∈ y.2.map TransferSvrInfo.key := h2 ▸ List.mem_map.mpr ⟨e, he, rfl⟩
    obtain ⟨z, hz, hze⟩ := List.mem_map.mp he'
    have := h.zone y hy z hz
    rw [← h1, ← this]
    exact (congrArg Prod.fst hze).symm
  · have := (List.pairwise_map (f := TransferSvrInfo.key) (R := fun x y => x ≠ y)).mpr h.once
    rw [← hkeys] at this
    exact List.pairwise_map.mp this
  · have he' : e.key ∈ t.entries.map TransferSvrInfo.key := hkeys ▸ List.mem_map.mpr ⟨e, he, rfl⟩
    obtain ⟨y, hy, hye⟩ := List.mem_map.mp he'
    exact hye ▸ h.others y hy

end ZoneTransferMap

/-- The members of `TransferInstanceMgr` that a reload uses. -/
structure TransferInstanceMgr where
  transferFile : String
  selfInstanceId : Int32
  selfServerZone : Int32
  zoneTransferMap : ZoneTransferMap
  sound : zoneTransferMap.Sound (selfServerZone, selfInstanceId)

/-- The number by which transfers are compared, in 32 bits. -/
def transferSeq (zone instId : Int32) : Int32 := zone * 1000000 + instId

namespace TransferInstanceMgr

/-- What `Init` sets before it reloads. -/
def start (transferFile : String) (selfServerZone selfInstanceId : Int32) : TransferInstanceMgr :=
  { transferFile, selfInstanceId, selfServerZone, zoneTransferMap := [],
    sound := ⟨by simp, List.Pairwise.nil, by simp [ZoneTransferMap.entries]⟩ }

def self (m : TransferInstanceMgr) : Int32 × Int32 := (m.selfServerZone, m.selfInstanceId)

def existTransfer (m : TransferInstanceMgr) (ip : String) (port : UInt32) (instId : Int32) : Bool :=
  m.zoneTransferMap.any fun x => x.2.any fun e => ip = e.ip && port = e.port && instId = e.instId

def dials (m : TransferInstanceMgr) (i : ConfigTransferInfo) : Bool :=
  transferSeq m.selfServerZone m.selfInstanceId < transferSeq i.svrZone i.instId &&
    !m.existTransfer i.listenIp (.ofInt i.listenPort2.toInt) i.instId

/-- The call of `ConnectOne` for a configured transfer, if there is one. -/
def dial (m : TransferInstanceMgr) (i : ConfigTransferInfo) : Option NetCall :=
  if i.key ≠ m.self ∧ m.dials i = true then
    some (.connectOne i.listenIp (.ofInt i.listenPort2.toInt) Enum_ConnType_Transfer2 i.instId)
  else none

def newInfo (m : TransferInstanceMgr) (i : ConfigTransferInfo) : TransferSvrInfo :=
  { ip := i.listenIp, port := .ofInt i.listenPort2.toInt, fd := 0, zone := i.svrZone, instId := i.instId,
    online := false, active := m.dials i }

/-- Whether the second loop finds an entry in the configuration. -/
def listed (items : List ConfigTransferInfo) (e : TransferSvrInfo) : Bool :=
  items.any fun i => e.ip = i.listenIp && e.port = .ofInt i.listenPort2.toInt && e.instId = i.instId

/-- What is assigned to `tmp_zone_transfer_map`, in this order. -/
def assigned (m : TransferInstanceMgr) (items : List ConfigTransferInfo) : List ((Int32 × Int32) × TransferSvrInfo) :=
  ((items.filter fun i => i.key ≠ m.self).map m.newInfo ++ m.zoneTransferMap.entries.filter (listed items)).map fun e =>
    (e.key, e)

theorem mem_assigned {m : TransferInstanceMgr} {items : List ConfigTransferInfo} {k : Int32 × Int32}
    {e : TransferSvrInfo} : (k, e) ∈ m.assigned items ↔ k = e.key ∧
      ((∃ i ∈ items, i.key ≠ m.self ∧ m.newInfo i = e) ∨ e ∈ m.zoneTransferMap.entries ∧ listed items e = true) := by
  simp only [assigned, List.mem_map, List.mem_append, List.mem_filter, Prod.mk.injEq, decide_eq_true_eq, and_assoc]
  constructor
  · rintro ⟨y, hy, rfl, rfl⟩
    exact ⟨rfl, hy⟩
  · rintro ⟨rfl, he⟩
    exact ⟨e, he, rfl, rfl⟩

theorem ofList_assigned (m : TransferInstanceMgr) (items : List ConfigTransferInfo) :
    ((UnordMap.ofList (m.assigned items)).map Prod.snd).Pairwise (fun x y => x.key ≠ y.key) ∧
      ∀ e ∈ (UnordMap.ofList (m.assigned items)).map Prod.snd, e.key ≠ m.self := by
  obtain ⟨hs, hm⟩ := UnordMap.ofList_spec (m.assigned items)
  have hin : ∀ x ∈ UnordMap.ofList (m.assigned items), (x.1, x.2) ∈ m.assigned items := by
    intro x hx
    obtain ⟨l₁, l₂, he, -⟩ := (hm x).mp hx
    simp [he]
  constructor
  · refine List.pairwise_map.mpr (hs.imp_of_mem fun {x y} hx hy hne => ?_)
    rwa [← (mem_assigned.mp (hin x hx)).1, ← (mem_assigned.mp (hin y hy)).1]
  · intro e he
    obtain ⟨x, hx, rfl⟩ := List.mem_map.mp he
    rcases (mem_assigned.mp (hin x hx)).2 with ⟨i, -, hi, hn⟩ | ⟨he, -⟩
    · rw [← hn]
      exact hi
    · exact m.sound.others _ he

/-- `ConnectTransfers` and what it asks of `NetIoHandler`. -/
def connectTransfers (m : TransferInstanceMgr) (items : List ConfigTransferInfo) (o : UnordMap.Order TransferSvrInfo) :
    TransferInstanceMgr × List NetCall :=
  let tmp := (UnordMap.ofList (m.assigned items)).map Prod.snd
  ({ m with
      zoneTransferMap := .ofEntries (o.order tmp)
      sound := by
        have hp := o.perm tmp
        obtain ⟨h1, h2⟩ := m.ofList_assigned items
        exact ZoneTransferMap.sound_ofEntries ((hp.pairwise_iff fun h => Ne.symm h).mpr h1) fun e he =>
          h2 e (hp.mem_iff.mp he) },
    items.filterMap m.dial ++
      (m.zoneTransferMap.entries.filter fun e => !listed items e).map fun e => .closeFd e.fd)

/-- `Reload`: the transfers of a zone are to have different ids. -/
def reload (m : TransferInstanceMgr) (parse : String → Option (List ConfigTransferInfo))
    (o : UnordMap.Order TransferSvrInfo) : (TransferInstanceMgr × List NetCall) × Int :=
  reloadFile m m.transferFile parse (fun items => distinctIds [] (items.map fun i => i.key))
    fun items => m.connectTransfers items o

/-- In the vector of each zone the first entry that matches is online, with the descriptor. -/
def login (m : TransferInstanceMgr) (p : TransferSvrInfo → Bool) (fd : Int) : TransferInstanceMgr :=
  { m with
    zoneTransferMap := m.zoneTransferMap.map fun x =>
      (x.1, ZoneTransferMap.writeFirst p (TransferSvrInfo.logIn fd) x.2)
    sound := m.sound.sound_of_keys (by
      simp only [List.map_map, Function.comp_def]
      exact List.map_congr_left fun x _ => by
        rw [ZoneTransferMap.writeFirst_keys (f := TransferSvrInfo.logIn fd) fun _ => rfl]) }

/-- `LoginTransfer` of a transfer that has been connected to -/
def loginByAddress (m : TransferInstanceMgr) (ip : String) (port : UInt32) (instId : Int32) (fd : Int) :
    TransferInstanceMgr :=
  m.login (fun e => e.ip = ip && e.port = port && e.instId = instId) fd

/-- `LoginTransfer` of a transfer that has registered -/
def loginTransfer (m : TransferInstanceMgr) (serverZone instId : Int32) (fd : Int) : TransferInstanceMgr :=
  m.login (fun e => e.zone = serverZone && e.instId = instId) fd

theorem loginTransfer_online {m : TransferInstanceMgr} {serverZone instId : Int32} {fd : Int} {e : TransferSvrInfo}
    (he : e ∈ (m.loginTransfer serverZone instId fd).zoneTransferMap.entries) (hk : e.key = (serverZone, instId)) :
    e.online = true ∧ e.fd = fd := by
  obtain ⟨x, hx, he⟩ := List.mem_flatMap.mp he
  obtain ⟨y, hy, rfl⟩ := List.mem_map.mp hx
  have honce : y.2.Pairwise fun x y => x.key ≠ y.key := (List.pairwise_flatMap.mp m.sound.once).1 y hy
  have hp : ∀ e : TransferSvrInfo,
      (e.zone = serverZone && e.instId = instId) = true ↔ e.key = (serverZone, instId) := by
    simp [TransferSvrInfo.key]
  obtain ⟨e₀, rfl⟩ := ZoneTransferMap.writeFirst_of_key hp honce e he hk
  exact ⟨rfl, rfl⟩

end TransferInstanceMgr

end GlobalServer
