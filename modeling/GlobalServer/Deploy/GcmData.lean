import GlobalServer.Lib.Dict
import GlobalServer.Lib.Results

/-!
# The deploy configuration

The configuration files, as they have been read, their check, and the
instances that are generated from them.
-/

namespace GlobalServer.Deploy

structure Host where
  name : String := ""
  innerIp : String := ""
  outerIp : String := ""
  deployIp : String := ""
  deriving DecidableEq

structure ArtifactFile where
  src : String := ""
  dst : String := ""
  isDir : Bool := false
  needBackup : Bool := false
  tags : List String := []
  deriving DecidableEq

structure TemplateArtifactItem where
  templateName : String := ""
  files : List ArtifactFile := []
  deriving DecidableEq

structure NormalArtifactItem where
  templateName : String := ""
  name : String := ""
  functionId : Int := 0
  startPriority : Int := 0
  files : List ArtifactFile := []
  deriving DecidableEq

structure ArtifactGroupItem where
  name : String := ""
  artifactNames : List String := []
  deriving DecidableEq

structure InstanceGroup where
  artifactGroupName : String := ""
  hostName : String := ""
  instanceId : Int := 0
  deriving DecidableEq

structure Zone where
  name : String := ""
  id : Int := 0
  instanceGroups : List InstanceGroup := []
  deriving DecidableEq

structure World where
  name : String := ""
  id : Int := 0
  user : String := ""
  passwd : String := ""
  zones : List Zone := []
  deriving DecidableEq

/-- The files under one path. A file that is not there is an empty message. -/
structure Conf where
  hosts : List Host := []
  templateArtifacts : List TemplateArtifactItem := []
  artifacts : List NormalArtifactItem := []
  artifactGroups : List ArtifactGroupItem := []
  worlds : List World := []

structure ArtifactInstance where
  instanceId : String
  instanceName : String
  artifactName : String
  hostName : String
  innerIp : String
  outerIp : String
  deployIp : String
  startPriority : Int
  deriving DecidableEq

structure GcmData where
  hostMap : List (String × Host) := []
  templateArtifactMap : List (String × TemplateArtifactItem) := []
  artifactMap : List (String × NormalArtifactItem) := []
  artifactGroupMap : List (String × ArtifactGroupItem) := []
  worldMap : List (String × World) := []
  artifactInstances : List ArtifactInstance := []

/-- What is logged before an exception is raised. -/
inductive ConfError where
  | worldNameDuplicated (name : String)
  | functionIdDuplicated (functionId : Int)
  | worldNameEmpty (worldId : Int)
  | worldIdEmpty (worldName : String)
  | userEmpty (worldName : String)
  | passwdEmpty (worldName : String)
  | worldIdDuplicated (id : Int)
  | zoneNameEmpty (worldName : String)
  | zoneIdEmpty (worldName : String)
  | zoneNameDuplicated (name worldName : String)
  | zoneIdDuplicated (id : Int) (worldName : String)
  | artifactGroupNameEmpty (zone world : String)
  | hostNameEmpty (zone world : String)
  | instanceIdEmpty (zone world : String)
  | groupDuplicated (groupName : String) (instanceId : Int) (zoneName worldName : String)
  | noTemplate (templateName artifactsName : String)
  | noArtifactGroup (artifactGroupName zoneName worldName : String)
  | noHost (hostName zoneName worldName : String)
  | noArtifact (artifactGroup artifactName : String)
  deriving DecidableEq

/-! ## `_load_conf` -/

def addWorld (d : GcmData) (word : World) : Except ConfError GcmData :=
  if word.name ∈ d.worldMap.map Prod.fst then .error (.worldNameDuplicated word.name)
  else .ok { d with worldMap := Dict.set word.name word d.worldMap }

def loadConf (d : GcmData) (conf : Conf) : Except ConfError GcmData :=
  let d := { d with
    hostMap := conf.hosts.foldl (fun m host => Dict.set host.name host m) d.hostMap
    templateArtifactMap :=
      conf.templateArtifacts.foldl (fun m item => Dict.set item.templateName item m) d.templateArtifactMap
    artifactMap := conf.artifacts.foldl (fun m item => Dict.set item.name item m) d.artifactMap
    artifactGroupMap := conf.artifactGroups.foldl (fun m item => Dict.set item.name item m) d.artifactGroupMap }
  conf.worlds.foldlM addWorld d

/-! ## `_check_syntax` -/

def checkFunctionIds (functionIdSet : List Int) : List (String × NormalArtifactItem) → Except ConfError Unit
  | [] => .ok ()
  | (_, artifact) :: l =>
    if artifact.functionId ∈ functionIdSet then .error (.functionIdDuplicated artifact.functionId)
    else checkFunctionIds (artifact.functionId :: functionIdSet) l

def checkGroups (world : World) (zone : Zone) (groupsSet : List (String × Int)) : List InstanceGroup → Except ConfError Unit
  | [] => .ok ()
  | groups :: l =>
    if groups.artifactGroupName = "" then .error (.artifactGroupNameEmpty zone.name world.name)
    else if groups.hostName = "" then .error (.hostNameEmpty zone.name world.name)
    else if groups.instanceId = 0 then .error (.instanceIdEmpty zone.name world.name)
    else if (groups.artifactGroupName, groups.instanceId) ∈ groupsSet then
      .error (.groupDuplicated groups.artifactGroupName groups.instanceId zone.name world.name)
    else checkGroups world zone ((groups.artifactGroupName, groups.instanceId) :: groupsSet) l

def checkZones (world : World) (zoneNameSet : List String) (zoneIdSet : List Int) : List Zone → Except ConfError Unit
  | [] => .ok ()
  | zone :: l =>
    if zone.name = "" then .error (.zoneNameEmpty world.name)
    else if zone.id = 0 then .error (.zoneIdEmpty world.name)
    else if zone.name ∈ zoneNameSet then .error (.zoneNameDuplicated zone.name world.name)
    else if zone.id ∈ zoneIdSet then .error (.zoneIdDuplicated zone.id world.name)
    else do
      checkGroups world zone [] zone.instanceGroups
      checkZones world (zone.name :: zoneNameSet) (zone.id :: zoneIdSet) l

def checkWorlds (worldIdSet : List Int) : List (String × World) → Except ConfError Unit
  | [] => .ok ()
  | (_, world) :: l =>
    if world.name = "" then .error (.worldNameEmpty world.id)
    else if world.id = 0 then .error (.worldIdEmpty world.name)
    else if world.user = "" then .error (.userEmpty world.name)
    else if world.passwd = "" then .error (.passwdEmpty world.name)
    else if world.id ∈ worldIdSet then .error (.worldIdDuplicated world.id)
    else do
      checkZones world [] [] world.zones
      checkWorlds (world.id :: worldIdSet) l

def GcmData.checkSyntax (d : GcmData) : Except ConfError Unit := do
  checkFunctionIds [] d.artifactMap
  checkWorlds [] d.worldMap

/-! ## `_convert_template_artifacts` -/

def convertTemplateArtifact (d : GcmData) (x : String × NormalArtifactItem) :
    Except ConfError (String × NormalArtifactItem) :=
  if x.2.templateName = "" then .ok x
  else
    match Dict.get? x.2.templateName d.templateArtifactMap with
    | none => .error (.noTemplate x.2.templateName x.1)
    | some templateArtifact => .ok (x.1, { x.2 with files := x.2.files ++ templateArtifact.files })

def GcmData.convertTemplateArtifacts (d : GcmData) : Except ConfError GcmData := do
  return { d with artifactMap := ← d.artifactMap.mapM (convertTemplateArtifact d) }

/-! ## `_gen_instance` -/

/-- The format of ids and names, `'%d.%d.%d.%d'` and `'%s.%s.%s.%s'`. -/
def dotted (world zone artifact instanceId : String) : String :=
  world ++ "." ++ zone ++ "." ++ artifact ++ "." ++ instanceId

def GcmData.genArtifact (d : GcmData) (world : String × World) (zone : Zone) (instGroups : InstanceGroup) (host : Host)
    (artifactName : String) : Except ConfError ArtifactInstance :=
  match Dict.get? artifactName d.artifactMap with
  | none => .error (.noArtifact instGroups.artifactGroupName artifactName)
  | some artifact => .ok {
      instanceId := dotted (toString world.2.id) (toString zone.id) (toString artifact.functionId)
        (toString instGroups.instanceId)
      instanceName := dotted world.1 zone.name artifact.name (toString instGroups.instanceId)
      artifactName := artifactName
      hostName := instGroups.hostName
      innerIp := host.innerIp
      outerIp := host.outerIp
      deployIp := host.deployIp
      startPriority := artifact.startPriority }

def GcmData.genGroup (d : GcmData) (world : String × World) (zone : Zone) (instGroups : InstanceGroup) :
    Except ConfError (List ArtifactInstance) :=
  match Dict.get? instGroups.artifactGroupName d.artifactGroupMap with
  | none => .error (.noArtifactGroup instGroups.artifactGroupName zone.name world.1)
  | some group =>
    match Dict.get? instGroups.hostName d.hostMap with
    | none => .error (.noHost instGroups.hostName zone.name world.1)
    | some host => group.artifactNames.mapM (d.genArtifact world zone instGroups host)

def GcmData.genZone (d : GcmData) (world : String × World) (zone : Zone) : Except ConfError (List ArtifactInstance) := do
  return (← zone.instanceGroups.mapM (d.genGroup world zone)).flatten

def GcmData.genWorld (d : GcmData) (world : String × World) : Except ConfError (List ArtifactInstance) := do
  return (← world.2.zones.mapM (d.genZone world)).flatten

def GcmData.genInstance (d : GcmData) : Except ConfError GcmData := do
  return { d with artifactInstances := d.artifactInstances ++ (← d.worldMap.mapM d.genWorld).flatten }

/-- `GcmData.init`, of a new `GcmData` -/
def init (confPaths : List Conf) : Except ConfError GcmData := do
  let d ← confPaths.foldlM loadConf {}
  d.checkSyntax
  let d ← d.convertTemplateArtifacts
  d.genInstance

end GlobalServer.Deploy
