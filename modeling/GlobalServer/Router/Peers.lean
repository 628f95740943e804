import GlobalServer.Lib.OrdMap
import Mathlib.Data.UInt

/-!
# The routers and the transfers of a zone

`RouterMgr` keeps a connection to each router of its zone, and the routersvr's
`TransferMgr` one to each transfer of its zone, in the same way: a vector in
the order of the instance ids, which a reload of the configuration replaces.
A peer stays as it is if its address and its id are still configured.
-/

namespace GlobalServer

/-- `config::RouterInfo`, of which a configuration of routers is a list -/
structure ConfigRouterInfo where
  listenIp : String
  listenPort : Int32
  instId : Int32
  svrZone : Int32
  deriving DecidableEq

/-- `config::TransferInfo`; the second port is that for other transfers -/
structure ConfigTransferInfo extends ConfigRouterInfo where
  listenPort2 : Int32
  deriving DecidableEq

/-- `RouterInfo` of `RouterMgr` and `TransferInfo` of `TransferMgr` -/
structure PeerInfo where
  ip : String
  port : UInt16
  instId : Int32
  fd : Int
  deriving DecidableEq

inductive NetCall where
  | connectOne (ip : String) (port : UInt16) (connType : Int) (connNum : Int32)
  | closeFd (fd : Int)
  deriving DecidableEq

def Enum_ConnType_Router : Int := 1

def Enum_ConnType_Transfer : Int := 2

def Enum_ConnType_Transfer2 : Int := 3

/-- The check for duplicates: the loop ends at an id that is in the set of those before it. -/
def distinctIds {α : Type} [DecidableEq α] (seen : List α) : List α → Bool
  | [] => true
  | i :: ids => if i ∈ seen then false else distinctIds (i :: seen) ids

/-- A `Reload` of the configuration in `file`, which `parse` reads and `ok` checks before the server's state is
replaced, and what it returns. -/
def reloadFile {M α : Type} (m : M) (file : String) (parse : String → Option (List α)) (ok : List α → Bool)
    (connect : List α → M × List NetCall) : (M × List NetCall) × Int :=
  if file = "" then ((m, []), 0)
  else match parse file with
    | none => ((m, []), -1)
    | some items => if ok items then (connect items, 0) else ((m, []), -1)

section
variable {M α : Type} {m : M} {file : String} {parse : String → Option (List α)} {ok : List α → Bool}
  {connect : List α → M × List NetCall}

theorem reloadFile_error (h : (reloadFile m file parse ok connect).2 ≠ 0) :
    (reloadFile m file parse ok connect).1 = (m, []) := by
  unfold reloadFile at h ⊢
  split
  · rfl
  · rename_i hf
    rw [if_neg hf] at h
    cases hp : parse file with
    | none => rfl
    | some items =>
      simp only [hp] at h ⊢
      split
      · rename_i hd
        rw [if_pos hd] at h
        exact absurd rfl h
      · rfl

theorem reloadFile_ok {items : List α} (hf : file ≠ "") (hp : parse file = some items)
    (h : (reloadFile m file parse ok connect).2 = 0) :
    ok items = true ∧ (reloadFile m file parse ok connect).1 = connect items := by
  simp only [reloadFile, if_neg hf, hp] at h ⊢
  split at h
  · rename_i hd
    exact ⟨hd, by rw [if_pos hd]⟩
  · cases h

end

/-- The members of `RouterMgr` or `TransferMgr` that a reload uses. -/
structure PeerMgr where
  file : String
  selfServerZone : Int32
  infoVec : List PeerInfo
  sorted : infoVec.Pairwise fun x y => x.instId.toInt < y.instId.toInt

namespace PeerMgr

/-- `Init` before the file is loaded -/
def init (file : String) (selfServerZone : Int32) : PeerMgr :=
  { file, selfServerZone, infoVec := [], sorted := List.Pairwise.nil }

/-- `ExistRouter` or `ExistTransfer` -/
def exist (m : PeerMgr) (ip : String) (port : UInt32) (instId : Int32) : Bool :=
  m.infoVec.any fun x => ip = x.ip && port = x.port.toUInt32 && instId = x.instId

def newInfo (i : ConfigRouterInfo) : PeerInfo :=
  { ip := i.listenIp, port := .ofInt i.listenPort.toInt, instId := i.instId, fd := 0 }

/-- Whether the first loop connects to a configured peer. -/
def isNew (m : PeerMgr) (i : ConfigRouterInfo) : Bool :=
  i.svrZone = m.selfServerZone && !m.exist i.listenIp (.ofInt i.listenPort.toInt) i.instId

/-- Whether the second loop finds a peer in the configuration. -/
def listed (items : List ConfigRouterInfo) (x : PeerInfo) : Bool :=
  items.any fun i => x.ip = i.listenIp && (x.port.toNat : Int) = i.listenPort.toInt && x.instId = i.instId

/-- What is assigned to `tmp_router_info_map`, in this order. -/
def assigned (m : PeerMgr) (items : List ConfigRouterInfo) : List (Int × PeerInfo) :=
  ((items.filter m.isNew).map newInfo ++ m.infoVec.filter (listed items)).map fun x => (x.instId.toInt, x)

theorem mem_assigned {m : PeerMgr} {items : List ConfigRouterInfo} {k : Int} {x : PeerInfo} :
    (k, x) ∈ m.assigned items ↔
      k = x.instId.toInt ∧
        ((∃ i ∈ items, m.isNew i = true ∧ newInfo i = x) ∨ x ∈ m.infoVec ∧ listed items x = true) := by
  simp only [assigned, List.mem_map, List.mem_append, List.mem_filter, Prod.mk.injEq, and_assoc]
  constructor
  · rintro ⟨y, hy, rfl, rfl⟩
    exact ⟨rfl, hy⟩
  · rintro ⟨rfl, hx⟩
    exact ⟨x, hx, rfl, rfl⟩

theorem sorted_assigned (m : PeerMgr) (items : List ConfigRouterInfo) :
    ((OrdMap.ofList (m.assigned items)).map Prod.snd).Pairwise fun x y => x.instId.toInt < y.instId.toInt := by
  obtain ⟨hs, hm⟩ := OrdMap.ofList_spec (m.assigned items)
  have hkey : ∀ x ∈ OrdMap.ofList (m.assigned items), x.1 = x.2.instId.toInt := by
    intro x hx
    obtain ⟨l₁, l₂, he, -⟩ := (hm x).mp hx
    exact (mem_assigned.mp (he ▸ List.mem_append_right l₁ (List.mem_cons_self (l := l₂)))).1
  rw [List.pairwise_map]
  refine hs.imp_of_mem fun {x y} hx hy hlt => ?_
  rwa [← hkey x hx, ← hkey y hy]

/-- `ConnectRouters` or `ConnectTransfers` and what it asks of `NetIoHandler`. -/
def connectPeers (connType : Int) (m : PeerMgr) (items : List ConfigRouterInfo) : PeerMgr × List NetCall :=
  ({ m with infoVec := (OrdMap.ofList (m.assigned items)).map Prod.snd, sorted := m.sorted_assigned items },
    ((items.filter m.isNew).map fun i => .connectOne i.listenIp (.ofInt i.listenPort.toInt) connType i.instId) ++
      (m.infoVec.filter fun x => !listed items x).map fun x => .closeFd x.fd)

/-- `Reload`: the peers of the zone are to have different ids. -/
def reload (connType : Int) (m : PeerMgr) (parse : String → Option (List ConfigRouterInfo)) :
    (PeerMgr × List NetCall) × Int :=
  reloadFile m m.file parse
    (fun items => distinctIds [] ((items.filter fun i => i.svrZone = m.selfServerZone).map fun i => i.instId))
    (m.connectPeers connType)

/-- The vector after `LoginRouter` or `LoginTransfer`: the first entry that matches gets the descriptor. -/
def loginVec (ip : String) (port : UInt32) (instId : Int32) (fd : Int) : List PeerInfo → List PeerInfo
  | [] => []
  | x :: l =>
    if ip = x.ip ∧ port = x.port.toUInt32 ∧ instId = x.instId then { x with fd } :: l
    else x :: loginVec ip port instId fd l

theorem loginVec_ids (ip : String) (port : UInt32) (instId : Int32) (fd : Int) (l : List PeerInfo) :
    (loginVec ip port instId fd l).map PeerInfo.instId = l.map PeerInfo.instId := by
  induction l with
  | nil => rfl
  | cons x l ih =>
    unfold loginVec
    split <;> simp [ih]

theorem sorted_loginVec (ip : String) (port : UInt32) (instId : Int32) (fd : Int) {l : List PeerInfo}
    (h : l.Pairwise fun x y => x.instId.toInt < y.instId.toInt) :
    (loginVec ip port instId fd l).Pairwise fun x y => x.instId.toInt < y.instId.toInt := by
  have hl := (List.pairwise_map (f := PeerInfo.instId) (R := fun i j => i.toInt < j.toInt)).mpr h
  rw [← loginVec_ids ip port instId fd l] at hl
  exact (List.pairwise_map (f := PeerInfo.instId) (R := fun i j => i.toInt < j.toInt)).mp hl

/-- `LoginRouter` or `LoginTransfer` and what it returns. -/
def login (m : PeerMgr) (ip : String) (port : UInt32) (instId : Int32) (fd : Int) : PeerMgr × Int :=
  ({ m with
      infoVec := loginVec ip port instId fd m.infoVec
      sorted := sorted_loginVec ip port instId fd m.sorted },
    if m.exist ip port instId then 0 else -1)

end PeerMgr

def RouterMgr.reload : PeerMgr → (String → Option (List ConfigRouterInfo)) → (PeerMgr × List NetCall) × Int :=
  PeerMgr.reload Enum_ConnType_Router

/-- `TransferMgr::Reload` of the routersvr -/
def TransferMgr.reload (m : PeerMgr) (parse : String → Option (List ConfigTransferInfo)) :
    (PeerMgr × List NetCall) × Int :=
  m.reload Enum_ConnType_Transfer fun file => (parse file).map fun items => items.map (·.toConfigRouterInfo)

end GlobalServer
