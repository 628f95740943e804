import GlobalServer.Deploy.GcmData
import GlobalServer.Lib.Separated
import Mathlib

/-!
# Ids and names of the generated instances

The check of the configuration sees to it that worlds, zones, artifacts and
groups differ among themselves. Instances can still have one id, where two
groups share an artifact.
-/

namespace GlobalServer.Deploy

/-! ## What the check establishes -/

theorem nodup_cons_seen {κ : Type} {k : κ} {seen ks : List κ} (hk : k ∉ seen)
    (h : ks.Nodup ∧ ∀ x ∈ ks, x ∉ k :: seen) : (k :: ks).Nodup ∧ ∀ x ∈ k :: ks, x ∉ seen := by
  obtain ⟨hn, hs⟩ := h
  refine ⟨List.nodup_cons.mpr ⟨fun hm => hs k hm List.mem_cons_self, hn⟩, ?_⟩
  intro x hx
  rcases List.mem_cons.mp hx with rfl | hx
  · exact hk
  · exact fun hm => hs x hx (List.mem_cons_of_mem k hm)

theorem checkFunctionIds_ok : ∀ {l : List (String × NormalArtifactItem)} {functionIdSet : List Int},
    checkFunctionIds functionIdSet l = .ok () →
      (l.map fun x => x.2.functionId).Nodup ∧ ∀ k ∈ l.map fun x => x.2.functionId, k ∉ functionIdSet
  | [], _, _ => ⟨List.nodup_nil, by simp⟩
  | (name, artifact) :: l, functionIdSet, h => by
    obtain ⟨hf, h⟩ := Except.guard_eq_ok.mp h
    exact nodup_cons_seen hf (checkFunctionIds_ok h)

theorem checkZones_ok {world : World} : ∀ {l : List Zone} {zoneNameSet : List String} {zoneIdSet : List Int},
    checkZones world zoneNameSet zoneIdSet l = .ok () →
      ((l.map Zone.name).Nodup ∧ ∀ k ∈ l.map Zone.name, k ∉ zoneNameSet) ∧
        (l.map Zone.id).Nodup ∧ ∀ k ∈ l.map Zone.id, k ∉ zoneIdSet
  | [], _, _, _ => ⟨⟨List.nodup_nil, by simp⟩, List.nodup_nil, by simp⟩
  | zone :: l, zoneNameSet, zoneIdSet, h => by
    unfold checkZones at h
    simp only [Except.guard_eq_ok] at h
    obtain ⟨-, -, hname, hid, h⟩ := h
    obtain ⟨-, -, h⟩ := Except.bind_eq_ok.mp h
    obtain ⟨hnames, hids⟩ := checkZones_ok h
    exact ⟨nodup_cons_seen hname hnames, nodup_cons_seen hid hids⟩

theorem checkWorlds_ok : ∀ {l : List (String × World)} {worldIdSet : List Int}, checkWorlds worldIdSet l = .ok () →
    ((l.map fun x => x.2.id).Nodup ∧ ∀ k ∈ l.map fun x => x.2.id, k ∉ worldIdSet) ∧
      ∀ x ∈ l, (x.2.zones.map Zone.name).Nodup ∧ (x.2.zones.map Zone.id).Nodup
  | [], _, _ => ⟨⟨List.nodup_nil, by simp⟩, by simp⟩
  | (name, world) :: l, worldIdSet, h => by
    unfold checkWorlds at h
    simp only [Except.guard_eq_ok] at h
    obtain ⟨-, -, -, -, hid, h⟩ := h
    obtain ⟨⟨⟩, hz, h⟩ := Except.bind_eq_ok.mp h
    obtain ⟨⟨hnames, -⟩, hids, -⟩ := checkZones_ok hz
    obtain ⟨hw, hzones⟩ := checkWorlds_ok h
    refine ⟨nodup_cons_seen hid hw, fun x hx => ?_⟩
    rcases List.mem_cons.mp hx with rfl | hx
    · exact ⟨hnames, hids⟩
    · exact hzones x hx

/-- What holds of a configuration that is loaded and has passed the check. -/
structure Checked (d : GcmData) : Prop where
  worlds : Dict.Named World.name d.worldMap
  artifacts : Dict.Named NormalArtifactItem.name d.artifactMap
  functionIds : (d.artifactMap.map fun x => x.2.functionId).Nodup
  worldIds : (d.worldMap.map fun x => x.2.id).Nodup
  zones : ∀ x ∈ d.worldMap, (x.2.zones.map Zone.name).Nodup ∧ (x.2.zones.map Zone.id).Nodup

theorem named_foldl {β : Type} {name : β → String} (items : List β) : ∀ {m : List (String × β)}, Dict.Named name m →
    Dict.Named name (items.foldl (fun m item => Dict.set (name item) item m) m) := by
  induction items with
  | nil => exact fun h => h
  | cons item items ih => exact fun h => ih (h.set item)

/-- What loading keeps. -/
structure Loaded (d : GcmData) : Prop where
  worlds : Dict.Named World.name d.worldMap
  artifacts : Dict.Named NormalArtifactItem.name d.artifactMap
  noInstances : d.artifactInstances = []

theorem Loaded.conf {d d' : GcmData} {conf : Conf} (hd : Loaded d) (h : loadConf d conf = .ok d') : Loaded d' := by
  refine Except.foldlM_inv (fun b word b' hb hw => ?_) ?_ h
  · obtain ⟨-, hw⟩ := Except.guard_eq_ok.mp hw
    obtain rfl := Except.ok.inj hw
    exact ⟨hb.worlds.set word, hb.artifacts, hb.noInstances⟩
  · exact ⟨hd.worlds, named_foldl conf.artifacts hd.artifacts, hd.noInstances⟩

theorem convertTemplateArtifact_ok {d : GcmData} {x y : String × NormalArtifactItem}
    (h : convertTemplateArtifact d x = .ok y) :
    y.1 = x.1 ∧ y.2.name = x.2.name ∧ y.2.functionId = x.2.functionId := by
  unfold convertTemplateArtifact at h
  split at h
  · obtain rfl := Except.ok.inj h
    exact ⟨rfl, rfl, rfl⟩
  · split at h
    · cases h
    · obtain rfl := Except.ok.inj h
      exact ⟨rfl, rfl, rfl⟩

theorem init_ok {confPaths : List Conf} {d : GcmData} (h : init confPaths = .ok d) :
    Checked d ∧ ∃ ls, d.worldMap.mapM d.genWorld = .ok ls ∧ d.artifactInstances = ls.flatten := by
  obtain ⟨d₀, hload, h⟩ := Except.bind_eq_ok.mp h
  obtain ⟨⟨⟩, hcheck, h⟩ := Except.bind_eq_ok.mp h
  obtain ⟨d₁, hconv, h⟩ := Except.bind_eq_ok.mp h
  obtain ⟨ls, hgen, h⟩ := Except.bind_eq_ok.mp h
  obtain ⟨artifactMap, hmap, hconv⟩ := Except.bind_eq_ok.mp hconv
  obtain rfl := Except.ok.inj hconv
  obtain rfl := Except.ok.inj h
  have hl : Loaded d₀ := Except.foldlM_inv (fun _ _ _ hb hb' => hb.conf hb') ⟨.nil, .nil, rfl⟩ hload
  obtain ⟨⟨⟩, hids, hworlds⟩ := Except.bind_eq_ok.mp hcheck
  obtain ⟨⟨hworldIds, -⟩, hzones⟩ := checkWorlds_ok hworlds
  have hkeys : artifactMap.map Prod.fst = d₀.artifactMap.map Prod.fst :=
    Except.mapM_map hmap fun x y hy => (convertTemplateArtifact_ok hy).1
  have hfids : (artifactMap.map fun x => x.2.functionId) = d₀.artifactMap.map fun x => x.2.functionId :=
    Except.mapM_map hmap fun x y hy => (convertTemplateArtifact_ok hy).2.2
  refine ⟨⟨hl.worlds, ⟨hkeys ▸ hl.artifacts.nodup, ?_⟩, hfids ▸ (checkFunctionIds_ok hids).1, hworldIds, hzones⟩, ls, hgen,
    by rw [hl.noInstances, List.nil_append]⟩
  intro y hy
  obtain ⟨x, hx, hxy⟩ := (Except.mapM_ok hmap).exists_left y hy
  obtain ⟨h1, h2, -⟩ := convertTemplateArtifact_ok hxy
  rw [h1, h2]
  exact hl.artifacts.name_eq x hx

/-! ## Where instances come from -/

/-- A world, a zone of it, the name of an artifact and the `instance_id` of a group. -/
abbrev Place := World × Zone × String × Int

namespace GcmData

variable (d : GcmData)

def groupArtifacts (instGroups : InstanceGroup) : List String :=
  match Dict.get? instGroups.artifactGroupName d.artifactGroupMap with
  | none => []
  | some group => group.artifactNames

def zonePlaces (zone : Zone) : List (String × Int) :=
  zone.instanceGroups.flatMap fun g => (d.groupArtifacts g).map fun a => (a, g.instanceId)

def worldPlaces (world : World) : List (Zone × String × Int) :=
  world.zones.flatMap fun zone => (d.zonePlaces zone).map (Prod.mk zone)

def places : List Place := d.worldMap.flatMap fun x => (d.worldPlaces x.2).map (Prod.mk x.2)

def functionId (artifactName : String) : Int :=
  match Dict.get? artifactName d.artifactMap with
  | none => 0
  | some artifact => artifact.functionId

def idAt (p : Place) : String :=
  dotted (toString p.1.id) (toString p.2.1.id) (toString (d.functionId p.2.2.1)) (toString p.2.2.2)

/-- No group of a zone has an artifact twice, and groups of a zone with one `instance_id` share none. -/
def DeployedOnce : Prop :=
  ∀ x ∈ d.worldMap, ∀ zone ∈ x.2.zones, (∀ g ∈ zone.instanceGroups, (d.groupArtifacts g).Nodup) ∧
    zone.instanceGroups.Pairwise fun g g' => g.instanceId = g'.instanceId →
      (d.groupArtifacts g).Disjoint (d.groupArtifacts g')

end GcmData

namespace Place

def nameAt (p : Place) : String := dotted p.1.name p.2.1.name p.2.2.1 (toString p.2.2.2)

/-- The names of world, zone and artifact. -/
def names (p : Place) : String × String × String := (p.1.name, p.2.1.name, p.2.2.1)

/-- What is between the dots in them, one after the other. -/
def components (p : Place) : List (List Char) :=
  p.1.name.toList.splitOn '.' ++ p.2.1.name.toList.splitOn '.' ++ p.2.2.1.toList.splitOn '.'

end Place

/-- Where one `instance_id` is used, other names of world, zone and artifact have other components. -/
def GcmData.NamesApart (d : GcmData) : Prop :=
  ∀ p ∈ d.places, ∀ q ∈ d.places, p.2.2.2 = q.2.2.2 → p.components = q.components → p.names = q.names

/-- An instance has the id and the name that its place gives it, and its artifact is known. -/
structure Generated (d : GcmData) (p : Place) (i : ArtifactInstance) : Prop where
  instanceId : i.instanceId = d.idAt p
  instanceName : i.instanceName = Place.nameAt p
  artifact : p.2.2.1 ∈ d.artifactMap.map Prod.fst

section
variable {d : GcmData} (hd : Checked d)
include hd

theorem genArtifact_ok {x : String × World} (hx : x ∈ d.worldMap) {zone : Zone} {g : InstanceGroup} {host : Host}
    {a : String} {i : ArtifactInstance} (h : d.genArtifact x zone g host a = .ok i) :
    Generated d (x.2, zone, a, g.instanceId) i := by
  unfold GcmData.genArtifact at h
  split at h
  · cases h
  · rename_i artifact ha
    obtain rfl := Except.ok.inj h
    have hm := Dict.mem_of_get? ha
    have hname : artifact.name = a := hd.artifacts.name_eq _ hm
    refine ⟨?_, ?_, List.mem_map_of_mem hm⟩
    · simp [GcmData.idAt, GcmData.functionId, ha]
    · simp [Place.nameAt, hname, hd.worlds.name_eq x hx]

theorem genGroup_ok {x : String × World} (hx : x ∈ d.worldMap) {zone : Zone} {g : InstanceGroup}
    {is : List ArtifactInstance} (h : d.genGroup x zone g = .ok is) :
    List.Forall₂ (fun p i => Generated d (x.2, zone, p) i) ((d.groupArtifacts g).map fun a => (a, g.instanceId)) is := by
  unfold GcmData.genGroup at h
  split at h
  · cases h
  · rename_i group hg
    split at h
    · cases h
    · have hnames : d.groupArtifacts g = group.artifactNames := by simp [GcmData.groupArtifacts, hg]
      rw [hnames, List.forall₂_map_left_iff]
      exact (Except.mapM_ok h).imp fun a i hi => genArtifact_ok hd hx hi

theorem genZone_ok {x : String × World} (hx : x ∈ d.worldMap) {zone : Zone} {is : List ArtifactInstance}
    (h : d.genZone x zone = .ok is) :
    List.Forall₂ (fun p i => Generated d (x.2, zone, p) i) (d.zonePlaces zone) is := by
  obtain ⟨ls, hls, h⟩ := Except.bind_eq_ok.mp h
  obtain rfl := Except.ok.inj h
  exact Except.mapM_flatten hls fun g _ is hg => genGroup_ok hd hx hg

theorem genWorld_ok {x : String × World} (hx : x ∈ d.worldMap) {is : List ArtifactInstance}
    (h : d.genWorld x = .ok is) : List.Forall₂ (fun p i => Generated d (x.2, p) i) (d.worldPlaces x.2) is := by
  obtain ⟨ls, hls, h⟩ := Except.bind_eq_ok.mp h
  obtain rfl := Except.ok.inj h
  refine Except.mapM_flatten hls fun zone _ is hz => ?_
  rw [List.forall₂_map_left_iff]
  exact genZone_ok hd hx hz

theorem generated {ls : List (List ArtifactInstance)} (h : d.worldMap.mapM d.genWorld = .ok ls) :
    List.Forall₂ (Generated d) d.places ls.flatten := by
  refine Except.mapM_flatten h fun x hx is hi => ?_
  rw [List.forall₂_map_left_iff]
  exact genWorld_ok hd hx hi

end

/-! ## Ids and names that differ -/

theorem nodup_map_tag {α β κ γ : Type} {l : List α} {key : α → κ} {f : α → List β} {g : β → γ}
    (hk : (l.map key).Nodup) :
    ((l.flatMap fun x => (f x).map (Prod.mk x)).map (Prod.map key g)).Nodup ↔ ∀ x ∈ l, ((f x).map g).Nodup := by
  have hmap : ∀ x, ((f x).map (Prod.mk x)).map (Prod.map key g) = ((f x).map g).map (Prod.mk (key x)) := by
    intro x
    rw [List.map_map, List.map_map]
    rfl
  simp only [List.map_flatMap, hmap]
  rw [List.nodup_flatMap]
  simp only [List.nodup_map_iff (Prod.mk_right_injective _)]
  refine and_iff_left ?_
  refine (List.pairwise_map.mp hk).imp ?_
  intro x y hxy p hp hq
  obtain ⟨b, -, rfl⟩ := List.mem_map.mp hp
  obtain ⟨c, -, hc⟩ := List.mem_map.mp hq
  exact hxy (congrArg Prod.fst hc).symm

theorem splitOn_dotted (w z a i : String) : (dotted w z a i).toList.splitOn '.' =
    w.toList.splitOn '.' ++ z.toList.splitOn '.' ++ a.toList.splitOn '.' ++ i.toList.splitOn '.' := by
  have hdot : ".".toList = ['.'] := rfl
  unfold dotted
  simp only [String.toList_append, hdot, List.append_assoc, List.cons_append, List.nil_append,
    List.splitOn_append_cons_self]

theorem not_mem_toString (n : Int) : '.' ∉ (toString n).toList := by
  have hnat : ∀ m : Nat, '.' ∉ m.repr.toList := by
    intro m hm
    rw [Nat.toList_repr] at hm
    exact absurd (Nat.isDigit_of_mem_toDigits (by decide) (by decide) hm) (by decide)
  cases n with
  | ofNat m => exact hnat m
  | negSucc m =>
    show '.' ∉ ("-" ++ (m + 1).repr).toList
    rw [String.toList_append, List.mem_append, not_or]
    exact ⟨by decide, hnat (m + 1)⟩

theorem splitOn_toString (n : Int) : (toString n).toList.splitOn '.' = [(toString n).toList] :=
  List.splitOn_eq_singleton (not_mem_toString n)

theorem toString_inj {m n : Int} : toString m = toString n ↔ m = n := Int.repr_inj

theorem dotted_toString_inj {a b c e a' b' c' e' : Int}
    (h : dotted (toString a) (toString b) (toString c) (toString e) =
      dotted (toString a') (toString b') (toString c') (toString e')) : a = a' ∧ b = b' ∧ c = c' ∧ e = e' := by
  have hs := congrArg (fun s => s.toList.splitOn '.') h
  simp only [splitOn_dotted, splitOn_toString, List.cons_append, List.nil_append,
    List.cons.injEq, String.toList_inj, toString_inj, and_true] at hs
  exact hs

theorem nameAt_eq_iff {p q : Place} : p.nameAt = q.nameAt ↔ p.2.2.2 = q.2.2.2 ∧ p.components = q.components := by
  have hs : ∀ r : Place, (Place.nameAt r).toList.splitOn '.' = r.components ++ [(toString r.2.2.2).toList] := by
    intro r
    rw [Place.nameAt, splitOn_dotted, splitOn_toString]
    rfl
  have hinj : Function.Injective fun s : String => s.toList.splitOn '.' := by
    intro s t h
    have h := congrArg (['.'].intercalate ·) h
    simp only [List.intercalate_splitOn] at h
    exact String.toList_inj.mp h
  rw [← hinj.eq_iff]
  simp only [hs]
  constructor
  · intro h
    obtain ⟨hc, hi⟩ := List.append_inj' h rfl
    exact ⟨toString_inj.mp (String.toList_inj.mp (List.singleton_inj.mp hi)), hc⟩
  · intro h
    rw [h.1, h.2]

section
variable {d : GcmData} (hd : Checked d)
include hd

theorem functionId_inj {a a' : String} (ha : a ∈ d.artifactMap.map Prod.fst) (ha' : a' ∈ d.artifactMap.map Prod.fst)
    (h : d.functionId a = d.functionId a') : a = a' := by
  have hget : ∀ {b}, b ∈ d.artifactMap.map Prod.fst → ∃ x ∈ d.artifactMap, x.1 = b ∧ d.functionId b = x.2.functionId := by
    intro b hb
    obtain ⟨artifact, hg⟩ := Dict.get?_of_mem hb
    exact ⟨(b, artifact), Dict.mem_of_get? hg, rfl, by simp [GcmData.functionId, hg]⟩
  obtain ⟨x, hx, rfl, hxf⟩ := hget ha
  obtain ⟨y, hy, rfl, hyf⟩ := hget ha'
  rw [hxf, hyf] at h
  rw [List.inj_on_of_nodup_map hd.functionIds hx hy h]

omit hd in
theorem nodup_zonePlaces {zone : Zone} : (d.zonePlaces zone).Nodup ↔
    (∀ g ∈ zone.instanceGroups, (d.groupArtifacts g).Nodup) ∧
      zone.instanceGroups.Pairwise fun g g' => g.instanceId = g'.instanceId →
        (d.groupArtifacts g).Disjoint (d.groupArtifacts g') := by
  have hinj : ∀ g : InstanceGroup, Function.Injective fun a : String => (a, g.instanceId) :=
    fun g => Prod.mk_left_injective g.instanceId
  unfold GcmData.zonePlaces
  rw [List.nodup_flatMap]
  simp only [List.nodup_map_iff (hinj _)]
  refine and_congr_right fun _ => List.Pairwise.iff fun g g' => ?_
  constructor
  · intro h he a ha ha'
    exact h (List.mem_map_of_mem ha) (by rw [he]; exact List.mem_map_of_mem ha')
  · intro h p hp hp'
    obtain ⟨a, ha, rfl⟩ := List.mem_map.mp hp
    obtain ⟨a', ha', he⟩ := List.mem_map.mp hp'
    obtain ⟨rfl, hi⟩ := Prod.mk.inj he
    exact h hi.symm ha ha'

omit hd in
/-- Places differ when those of each zone do, whatever of them tells worlds, zones and artifacts apart. -/
theorem nodup_places {κ κ' γ : Type} {kw : World → κ} {kz : Zone → κ'} {ka : String → γ}
    (hw : (d.worldMap.map fun x => kw x.2).Nodup) (hz : ∀ x ∈ d.worldMap, (x.2.zones.map kz).Nodup)
    (ha : ∀ p ∈ d.places, ∀ q ∈ d.places, ka p.2.2.1 = ka q.2.2.1 → p.2.2.1 = q.2.2.1) :
    (d.places.map (Prod.map kw (Prod.map kz (Prod.map ka id)))).Nodup ↔ d.DeployedOnce := by
  have hw' : ((d.worldMap.map Prod.snd).map kw).Nodup := by
    rw [List.map_map]
    exact hw
  have hplaces : d.places = (d.worldMap.map Prod.snd).flatMap fun w => (d.worldPlaces w).map (Prod.mk w) := by
    rw [List.flatMap_map]
    rfl
  have hmem : ∀ x ∈ d.worldMap, ∀ zone ∈ x.2.zones, ∀ p ∈ d.zonePlaces zone, (x.2, zone, p) ∈ d.places := by
    intro x hx zone hzone p hp
    refine List.mem_flatMap.mpr ⟨x, hx, List.mem_map_of_mem ?_⟩
    exact List.mem_flatMap.mpr ⟨zone, hzone, List.mem_map_of_mem hp⟩
  rw [hplaces, nodup_map_tag hw', List.forall_mem_map]
  refine forall₂_congr fun x hx => ?_
  rw [GcmData.worldPlaces, nodup_map_tag (hz x hx)]
  refine forall₂_congr fun zone hzone => ?_
  rw [← nodup_zonePlaces]
  refine ⟨List.Nodup.of_map _, fun h => h.map_on fun p hp q hq he => ?_⟩
  obtain ⟨hka, hi⟩ := Prod.mk.inj he
  exact Prod.ext (ha _ (hmem x hx zone hzone p hp) _ (hmem x hx zone hzone q hq) hka) hi

end

theorem nodup_instanceId {confPaths : List Conf} {d : GcmData} (h : init confPaths = .ok d) :
    (d.artifactInstances.map ArtifactInstance.instanceId).Nodup ↔ d.DeployedOnce := by
  obtain ⟨hd, ls, hgen, hi⟩ := init_ok h
  have hf := generated hd hgen
  have hids : d.artifactInstances.map ArtifactInstance.instanceId = d.places.map d.idAt := by
    rw [hi]
    exact hf.map_eq fun p i hpi => hpi.instanceId
  have hart : ∀ p ∈ d.places, p.2.2.1 ∈ d.artifactMap.map Prod.fst := by
    intro p hp
    obtain ⟨i, -, hpi⟩ := hf.exists_right p hp
    exact hpi.artifact
  have hinj : Function.Injective fun t : Int × Int × Int × Int =>
      dotted (toString t.1) (toString t.2.1) (toString t.2.2.1) (toString t.2.2.2) := by
    intro t t' ht
    obtain ⟨h1, h2, h3, h4⟩ := dotted_toString_inj ht
    exact Prod.ext h1 (Prod.ext h2 (Prod.ext h3 h4))
  have hid : d.idAt = (fun t : Int × Int × Int × Int =>
      dotted (toString t.1) (toString t.2.1) (toString t.2.2.1) (toString t.2.2.2)) ∘
        Prod.map World.id (Prod.map Zone.id (Prod.map d.functionId id)) := rfl
  rw [hids, hid, ← List.map_map, List.nodup_map_iff hinj]
  exact nodup_places hd.worldIds (fun x hx => (hd.zones x hx).2) fun p hp q hq he =>
    functionId_inj hd (hart p hp) (hart q hq) he

theorem nodup_instanceName {confPaths : List Conf} {d : GcmData} (h : init confPaths = .ok d) :
    (d.artifactInstances.map ArtifactInstance.instanceName).Nodup ↔ d.DeployedOnce ∧ d.NamesApart := by
  obtain ⟨hd, ls, hgen, hi⟩ := init_ok h
  have hf := generated hd hgen
  have hnames : d.artifactInstances.map ArtifactInstance.instanceName = d.places.map Place.nameAt := by
    rw [hi]
    exact hf.map_eq fun p i hpi => hpi.instanceName
  have hworlds : (d.worldMap.map fun x => x.2.name).Nodup := by
    have hn := hd.worlds.nodup_names
    rw [List.map_map] at hn
    exact hn
  have honce : (d.places.map (Prod.map World.name (Prod.map Zone.name (Prod.map id id)))).Nodup ↔ d.DeployedOnce :=
    nodup_places hworlds (fun x hx => (hd.zones x hx).1) fun p _ q _ he => he
  rw [hnames, ← honce]
  constructor
  · intro hn
    refine ⟨List.Nodup.of_map (fun t : String × String × String × Int => dotted t.1 t.2.1 t.2.2.1 (toString t.2.2.2)) ?_, ?_⟩
    · rw [List.map_map]
      exact hn
    · intro p hp q hq hi hc
      rw [List.inj_on_of_nodup_map hn hp hq (nameAt_eq_iff.mpr ⟨hi, hc⟩)]
  · rintro ⟨hn, hapart⟩
    refine (List.Nodup.of_map _ hn).map_on fun p hp q hq he => ?_
    obtain ⟨hi, hc⟩ := nameAt_eq_iff.mp he
    have hnm := hapart p hp q hq hi hc
    refine List.inj_on_of_nodup_map hn hp hq ?_
    simp only [Place.names, Prod.mk.injEq] at hnm
    simp only [Prod.map, hnm, hi, id]

theorem namesApart_of_no_dot {d : GcmData} (hd : ∀ p ∈ d.places, '.' ∉ p.1.name.toList ∧ '.' ∉ p.2.1.name.toList ∧
    '.' ∉ p.2.2.1.toList) : d.NamesApart := by
  have hc : ∀ p ∈ d.places, p.components = [p.1.name.toList, p.2.1.name.toList, p.2.2.1.toList] := by
    intro p hp
    obtain ⟨h1, h2, h3⟩ := hd p hp
    rw [Place.components, List.splitOn_eq_singleton h1, List.splitOn_eq_singleton h2, List.splitOn_eq_singleton h3]
    rfl
  intro p hp q hq _ he
  rw [hc p hp, hc q hq] at he
  simpa [Place.names, String.toList_inj] using he

/-- Ids and names of the instances of an accepted configuration. -/
theorem instances_distinct_iff {confPaths : List Conf} {d : GcmData} (h : init confPaths = .ok d) :
    (d.artifactInstances.map ArtifactInstance.instanceId).Nodup ∧
      (d.artifactInstances.map ArtifactInstance.instanceName).Nodup ↔ d.DeployedOnce ∧ d.NamesApart := by
  rw [nodup_instanceId h, nodup_instanceName h]
  exact and_iff_right_of_imp And.left

/-- Two groups, each of one artifact, in one zone. -/
def twoGroups (artifact artifact' : String) : Conf where
  hosts := [{ name := "test" }]
  artifacts := [{ name := "connsvr", functionId := 202 }, { name := "routersvr", functionId := 203 }]
  artifactGroups := [{ name := "conn", artifactNames := [artifact] }, { name := "router", artifactNames := [artifact'] }]
  worlds := [{
    name := "xqj", id := 1, user := "user00", passwd := "passwd"
    zones := [{
      name := "svr", id := 101
      instanceGroups := [{ artifactGroupName := "conn", hostName := "test", instanceId := 1 },
        { artifactGroupName := "router", hostName := "test", instanceId := 1 }] }] }]

theorem instances_distinct_two : ∃ d, init [twoGroups "connsvr" "routersvr"] = .ok d ∧
    ((d.artifactInstances.map ArtifactInstance.instanceId).Nodup ∧
      (d.artifactInstances.map ArtifactInstance.instanceName).Nodup ↔ d.DeployedOnce ∧ d.NamesApart) := by
  have hok : ∃ d, init [twoGroups "connsvr" "routersvr"] = .ok d := ⟨_, rfl⟩
  obtain ⟨d, h⟩ := hok
  exact ⟨d, h, instances_distinct_iff h⟩

/-- Both groups have the one artifact. -/
theorem same_instance_id : ∃ d, init [twoGroups "connsvr" "connsvr"] = .ok d ∧
    d.artifactInstances.map ArtifactInstance.instanceId = ["1.101.202.1", "1.101.202.1"] ∧
    ¬ ((d.artifactInstances.map ArtifactInstance.instanceId).Nodup ∧
      (d.artifactInstances.map ArtifactInstance.instanceName).Nodup) := by
  have hok : ∃ d, init [twoGroups "connsvr" "connsvr"] = .ok d ∧
      d.artifactInstances.map ArtifactInstance.instanceId = ["1.101.202.1", "1.101.202.1"] := ⟨_, rfl, by decide⟩
  obtain ⟨d, h, hids⟩ := hok
  refine ⟨d, h, hids, fun hn => ?_⟩
  have hn := hn.1
  rw [hids] at hn
  exact absurd hn (by decide)

/-- The dot between a world and its zone is where it is in the name of the other world. -/
def dottedWorlds : Conf where
  hosts := [{ name := "test" }]
  artifacts := [{ name := "connsvr", functionId := 202 }]
  artifactGroups := [{ name := "conn", artifactNames := ["connsvr"] }]
  worlds := [("a", 1, "b.c"), ("a.b", 2, "c")].map fun w => {
    name := w.1, id := w.2.1, user := "user00", passwd := "passwd"
    zones := [{
      name := w.2.2, id := 101
      instanceGroups := [{ artifactGroupName := "conn", hostName := "test", instanceId := 1 }] }] }

example : ∃ d, init [dottedWorlds] = .ok d ∧
    d.artifactInstances.map ArtifactInstance.instanceName = ["a.b.c.connsvr.1", "a.b.c.connsvr.1"] := ⟨_, rfl, by decide⟩

end GlobalServer.Deploy
