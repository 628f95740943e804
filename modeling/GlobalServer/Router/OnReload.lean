import GlobalServer.Router.PeersReload
import GlobalServer.Router.ServerInstance
import GlobalServer.Transfer.Reload

/-!
# `OnReload` of a routersvr and of a transfersvr

The server's own configuration is parsed into the message that the running
server reads its instance id, its zone and, in a routersvr, the policies from.
The parser clears the message before it starts and leaves what it has got when
it fails. The transfers are parsed into a message of their own.
-/

namespace GlobalServer.OnReload

/-- `TextFormat::Parse`: whether a text can be parsed, and what is in the cleared message after it. -/
abbrev TextFormat (CfgType : Type) := String → Bool × CfgType

/-- `ServerCfg::Parse` of a file with a text, if it can be opened, into `_cfg`. -/
def ServerCfg.parse {CfgType : Type} (format : TextFormat CfgType) (file : Option String) (cfg : CfgType) :
    CfgType × Int :=
  match file with
  | none => (cfg, -1)
  | some text => ((format text).2, if (format text).1 then 0 else -2)

/-- What can be read when a reload takes place, and how it is parsed. -/
structure ConfigFiles (CfgType : Type) where
  read : String → Option String
  svrFormat : TextFormat CfgType
  transferFormat : TextFormat (List ConfigTransferInfo)

namespace ConfigFiles

variable {CfgType : Type}

/-- `transfer_config.Parse` into a new message -/
def transfers (f : ConfigFiles CfgType) (file : String) : Option (List ConfigTransferInfo) :=
  let out := ServerCfg.parse f.transferFormat (f.read file) []
  if out.2 = 0 then some out.1 else none

end ConfigFiles

/-- `config::RouterSvrConfig`, of which the running server reads this. -/
structure RouterSvrConfig where
  svrInstId : Int32
  policyList : List Policy
  svrZone : Int32
  deriving DecidableEq

structure TransfersvrConfig where
  svrInstId : Int32
  svrZone : Int32
  deriving DecidableEq

/-- A running routersvr; `SeverInstanceMgr` is without the pointer to the configuration. -/
structure RouterApplication where
  configFilePath : String
  svrConfig : RouterSvrConfig
  infoContainer : SvrInstInfoContainer
  info : Nat → InstContainer
  infoTop : Nat
  transferMgr : PeerMgr

namespace RouterApplication

/-- `SeverInstanceMgr`, whose `_config` points to the configuration of the server -/
def severInstanceMgr (a : RouterApplication) : SeverInstanceMgr :=
  { config := some a.svrConfig.policyList, infoContainer := a.infoContainer, info := a.info, infoTop := a.infoTop }

def instanceId (a : RouterApplication) : Int32 := a.svrConfig.svrInstId

def serverZone (a : RouterApplication) : Int32 := a.svrConfig.svrZone

/-- `OnReload`, what it asks of `NetIoHandler` and what it returns. -/
def onReload (a : RouterApplication) (f : ConfigFiles RouterSvrConfig) : (RouterApplication × List NetCall) × Int :=
  let out := ServerCfg.parse f.svrFormat (f.read a.configFilePath) a.svrConfig
  let a := { a with svrConfig := out.1 }
  if out.2 ≠ 0 then ((a, []), -1)
  else
    let r := TransferMgr.reload a.transferMgr f.transfers
    (({ a with transferMgr := r.1.1 }, r.1.2), if r.2 ≠ 0 then -1 else 0)

/-- The two servers run with the same configuration. -/
structure SameConfig (a b : RouterApplication) : Prop where
  instanceId : b.instanceId = a.instanceId
  serverZone : b.serverZone = a.serverZone
  policies : ∀ serverType, SeverInstanceMgr.getPolicy b.severInstanceMgr.config serverType =
    SeverInstanceMgr.getPolicy a.severInstanceMgr.config serverType
  transfers : b.transferMgr = a.transferMgr

/-- The server's own file cannot be opened, or what is parsed of it has the id, the zone and the policies that the
server runs with. -/
def FileKeeps (a : RouterApplication) (f : ConfigFiles RouterSvrConfig) : Prop :=
  ∀ text, f.read a.configFilePath = some text →
    (f.svrFormat text).2.svrInstId = a.svrConfig.svrInstId ∧ (f.svrFormat text).2.svrZone = a.svrConfig.svrZone ∧
      ∀ serverType, (f.svrFormat text).2.policyList.find? (fun p => p.svrType = serverType) =
        a.svrConfig.policyList.find? fun p => p.svrType = serverType

/-- A reload that fails leaves the message as the parser left it, and everything else as it was. -/
theorem onReload_error {a : RouterApplication} {f : ConfigFiles RouterSvrConfig} (h : (a.onReload f).2 ≠ 0) :
    (a.onReload f).1 =
      ({ a with svrConfig := (ServerCfg.parse f.svrFormat (f.read a.configFilePath) a.svrConfig).1 }, []) := by
  simp only [onReload] at h ⊢
  split
  · rfl
  · rename_i hp
    rw [if_neg hp] at h
    have hr : (TransferMgr.reload a.transferMgr f.transfers).2 ≠ 0 := fun hr => h (by simp [hr])
    have he : (TransferMgr.reload a.transferMgr f.transfers).1 = (a.transferMgr, []) := reloadFile_error hr
    rw [he]

theorem sameConfig_iff {a : RouterApplication} {f : ConfigFiles RouterSvrConfig} (h : (a.onReload f).2 ≠ 0) :
    SameConfig a (a.onReload f).1.1 ↔ a.FileKeeps f := by
  rw [onReload_error h]
  unfold FileKeeps ServerCfg.parse
  cases f.read a.configFilePath with
  | none =>
    simp only [reduceCtorEq, false_implies, implies_true, iff_true]
    exact ⟨rfl, rfl, fun _ => rfl, rfl⟩
  | some text =>
    simp only [Option.some.injEq, forall_eq']
    constructor
    · intro hs
      exact ⟨hs.instanceId, hs.serverZone, hs.policies⟩
    · intro hk
      exact ⟨hk.1, hk.2.1, hk.2.2, rfl⟩

end RouterApplication

structure TransferApplication where
  configFilePath : String
  svrConfig : TransfersvrConfig
  transferInstanceMgr : TransferInstanceMgr

namespace TransferApplication

def instanceId (a : TransferApplication) : Int32 := a.svrConfig.svrInstId

def serverZone (a : TransferApplication) : Int32 := a.svrConfig.svrZone

/-- `OnReload`, what it asks of `NetIoHandler` and what it returns. -/
def onReload (a : TransferApplication) (f : ConfigFiles TransfersvrConfig) (o : UnordMap.Order TransferSvrInfo) :
    (TransferApplication × List NetCall) × Int :=
  let out := ServerCfg.parse f.svrFormat (f.read a.configFilePath) a.svrConfig
  let a := { a with svrConfig := out.1 }
  if out.2 ≠ 0 then ((a, []), -1)
  else
    let r := a.transferInstanceMgr.reload f.transfers o
    (({ a with transferInstanceMgr := r.1.1 }, r.1.2), if r.2 ≠ 0 then -1 else 0)

/-- The two servers run with the same configuration. -/
structure SameConfig (a b : TransferApplication) : Prop where
  instanceId : b.instanceId = a.instanceId
  serverZone : b.serverZone = a.serverZone
  transfers : b.transferInstanceMgr = a.transferInstanceMgr

/-- The server's own file cannot be opened, or what is parsed of it has the id and the zone that the server runs
with. -/
def FileKeeps (a : TransferApplication) (f : ConfigFiles TransfersvrConfig) : Prop :=
  ∀ text, f.read a.configFilePath = some text →
    (f.svrFormat text).2.svrInstId = a.svrConfig.svrInstId ∧ (f.svrFormat text).2.svrZone = a.svrConfig.svrZone

theorem onReload_error {a : TransferApplication} {f : ConfigFiles TransfersvrConfig}
    {o : UnordMap.Order TransferSvrInfo}
    (h : (a.onReload f o).2 ≠ 0) : (a.onReload f o).1 =
      ({ a with svrConfig := (ServerCfg.parse f.svrFormat (f.read a.configFilePath) a.svrConfig).1 }, []) := by
  simp only [onReload] at h ⊢
  split
  · rfl
  · rename_i hp
    rw [if_neg hp] at h
    have hr : (a.transferInstanceMgr.reload f.transfers o).2 ≠ 0 := fun hr => h (by simp [hr])
    have he : (a.transferInstanceMgr.reload f.transfers o).1 = (a.transferInstanceMgr, []) := reloadFile_error hr
    rw [he]

theorem sameConfig_iff {a : TransferApplication} {f : ConfigFiles TransfersvrConfig}
    {o : UnordMap.Order TransferSvrInfo}
    (h : (a.onReload f o).2 ≠ 0) : SameConfig a (a.onReload f o).1.1 ↔ a.FileKeeps f := by
  rw [onReload_error h]
  unfold FileKeeps ServerCfg.parse
  cases f.read a.configFilePath with
  | none =>
    simp only [reduceCtorEq, false_implies, implies_true, iff_true]
    exact ⟨rfl, rfl, rfl⟩
  | some text =>
    simp only [Option.some.injEq, forall_eq']
    constructor
    · intro hs
      exact ⟨hs.instanceId, hs.serverZone⟩
    · intro hk
      exact ⟨hk.1, hk.2, rfl⟩

end TransferApplication

/-- A reload that fails leaves the running configuration of a routersvr, and of a transfersvr, as it was exactly if
the server's own file cannot be opened or what is parsed of it says what the server runs with. -/
theorem onReload_keeps_iff (a : RouterApplication) (f : ConfigFiles RouterSvrConfig) (b : TransferApplication)
    (g : ConfigFiles TransfersvrConfig) (o : UnordMap.Order TransferSvrInfo) :
    ((a.onReload f).2 ≠ 0 → (a.SameConfig (a.onReload f).1.1 ↔ a.FileKeeps f)) ∧
    ((b.onReload g o).2 ≠ 0 → (b.SameConfig (b.onReload g o).1.1 ↔ b.FileKeeps g)) :=
  ⟨RouterApplication.sameConfig_iff, TransferApplication.sameConfig_iff⟩

/-- Router 5 of zone 1, with a policy for the servers of type 2 -/
def routerFive : RouterApplication :=
  { configFilePath := "router.conf"
    svrConfig := { svrInstId := 5, policyList := [{ svrType := 2, policy := POLICY_MOD }], svrZone := 1 }
    infoContainer := [], info := fun _ => { policy := 0, instSet := [] }, infoTop := 0
    transferMgr := .init "transfer.conf" 1 }

/-- and transfer 1 of zone 1. -/
def transferOne : TransferApplication :=
  { configFilePath := "transfer.conf", svrConfig := { svrInstId := 1, svrZone := 1 }
    transferInstanceMgr := .start "transfers" 1 1 }

/-- The server's own file is in order, and that of the transfers is not. -/
def wrongTransfers {CfgType : Type} (cfg : CfgType) : ConfigFiles CfgType :=
  { read := fun _ => some "svr_inst_id: 5 svr_zone: 1", svrFormat := fun _ => (true, cfg)
    transferFormat := fun _ => (false, []) }

/-- A second policy for a type, which `GetPolicy` does not come to -/
def twoPolicies : RouterSvrConfig :=
  { svrInstId := 5, policyList := [{ svrType := 2, policy := POLICY_MOD }, { svrType := 2, policy := POLICY_RANDOM }]
    svrZone := 1 }

theorem onReload_keeps_iff_transfers :
    (routerFive.onReload (wrongTransfers twoPolicies)).1.1.svrConfig.policyList.length = 2 ∧
      routerFive.SameConfig (routerFive.onReload (wrongTransfers twoPolicies)).1.1 ∧
      transferOne.SameConfig (transferOne.onReload (wrongTransfers transferOne.svrConfig) (.id _)).1.1 := by
  have h := onReload_keeps_iff routerFive (wrongTransfers twoPolicies) transferOne (wrongTransfers transferOne.svrConfig)
    (.id _)
  refine ⟨by decide, (h.1 (by decide)).mpr ?_, (h.2 (by decide)).mpr fun _ _ => ⟨rfl, rfl⟩⟩
  intro _ _
  refine ⟨rfl, rfl, fun serverType => ?_⟩
  by_cases ht : 2 = serverType
  · simp [wrongTransfers, twoPolicies, routerFive, ht]
  · simp [wrongTransfers, twoPolicies, routerFive, ht]

/-- A file that ends after the instance id: what comes after it is not in the message. -/
def cutFile {CfgType : Type} (cfg : CfgType) : ConfigFiles CfgType :=
  { read := fun _ => some "svr_inst_id: 5 svr_zone:", svrFormat := fun _ => (false, cfg)
    transferFormat := fun _ => (true, []) }

/-- The routersvr goes on without a zone and without policies, and a transfersvr without a zone. -/
theorem cut_file_changes_config :
    (routerFive.onReload (cutFile { svrInstId := 5, policyList := [], svrZone := 0 })).2 ≠ 0 ∧
    ¬ routerFive.SameConfig (routerFive.onReload (cutFile { svrInstId := 5, policyList := [], svrZone := 0 })).1.1 ∧
    (transferOne.onReload (cutFile { svrInstId := 5, svrZone := 0 }) (.id _)).2 ≠ 0 ∧
    ¬ transferOne.SameConfig (transferOne.onReload (cutFile { svrInstId := 5, svrZone := 0 }) (.id _)).1.1 := by
  refine ⟨by decide, fun h => ?_, by decide, fun h => ?_⟩
  · exact absurd h.serverZone (by decide)
  · exact absurd h.serverZone (by decide)

end GlobalServer.OnReload
