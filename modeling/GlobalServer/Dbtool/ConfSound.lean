import GlobalServer.Dbtool.Executor
import GlobalServer.Lib.Bytes

/-!
# What the check of a configuration establishes

The facts about a table that has passed, one structure for all of them, and
whether CREATE TABLE can be turned down for a reason the check looks at. The
check looks at all fields and at the names of the keys as they stand in the
file; the statement has the fields that are not deleted, and the primary key
under another name.
-/

namespace GlobalServer.Dbtool

/-! ## The loops of the check -/

structure FieldChecked (f : TableField) : Prop where
  exclusive : ¬ (f.renameFrom.isSome ∧ f.modifyType.isSome)
  fromOther : f.renameFrom ≠ some f.name
  autoIncr : f.autoIncr.isSome → f.getType.takesAutoIncr = true

theorem checkField_ok {m : FieldMap} {f : TableField} (h : checkField m f = .ok ()) :
    f.name ∉ m.map Prod.fst ∧ FieldChecked f := by
  simp only [checkField, Except.guard_eq_ok] at h
  obtain ⟨hn, h2, h3, -, -, h6, -⟩ := h
  refine ⟨hn, ⟨fun he => h2 (by simp [he.1, he.2]), h3, fun ha => ?_⟩⟩
  by_contra hc
  exact h6 ⟨ha, by simpa using hc⟩

/-- the map of the fields by name -/
def fieldMap (fs : List TableField) : FieldMap := OrdMap.ofList (fs.map fun f => (f.name, f))

theorem checkFields_ok : ∀ {fs : List TableField} {m m' : FieldMap}, checkFields fs m = .ok m' →
    m' = fs.foldl (fun m f => OrdMap.assign f.name f m) m ∧ (fs.map TableField.name).Nodup ∧
      (∀ f ∈ fs, f.name ∉ m.map Prod.fst) ∧ ∀ f ∈ fs, FieldChecked f
  | [], m, m', h => by
    cases h
    simp
  | f :: fs, m, m', h => by
    obtain ⟨⟨⟩, hf, h⟩ := Except.bind_eq_ok.mp h
    obtain ⟨hn, hc⟩ := checkField_ok hf
    obtain ⟨hm, hd, ha, hcs⟩ := checkFields_ok h
    have hout : ∀ g ∈ fs, g.name ≠ f.name ∧ g.name ∉ m.map Prod.fst := fun g hg =>
      not_or.mp fun he => ha g hg (OrdMap.mem_keys_assign.mpr he)
    refine ⟨hm, ?_, ?_, ?_⟩
    · apply List.nodup_cons.mpr
      refine ⟨fun hf => ?_, hd⟩
      obtain ⟨g, hg, he⟩ := List.mem_map.mp hf
      exact (hout g hg).1 he
    · intro g hg
      rcases List.mem_cons.mp hg with rfl | hg
      · exact hn
      · exact (hout g hg).2
    · intro g hg
      rcases List.mem_cons.mp hg with rfl | hg
      · exact hc
      · exact hcs g hg

theorem checkFields_map {fs : List TableField} {m : FieldMap} (h : checkFields fs [] = .ok m) : m = fieldMap fs := by
  rw [(checkFields_ok h).1, fieldMap, OrdMap.ofList, List.foldl_map]

theorem mem_fieldMap {fs : List TableField} (h : (fs.map TableField.name).Nodup) {n : String} {f : TableField} :
    (n, f) ∈ fieldMap fs ↔ f ∈ fs ∧ f.name = n := by
  rw [fieldMap, (OrdMap.ofList_spec _).2]
  have hp : (fs.map fun f => (f.name, f)).Pairwise fun x y => x.1 ≠ y.1 := by
    rw [List.pairwise_map]
    exact List.pairwise_map.mp h
  rw [Assign.last_iff_mem hp]
  simp only [List.mem_map, Prod.mk.injEq]
  exact ⟨fun ⟨g, hg, he, hgf⟩ => hgf ▸ ⟨hg, he⟩, fun ⟨hf, he⟩ => ⟨f, hf, he, rfl⟩⟩

theorem checkKeyFields_ok {m : FieldMap} {key : String} : ∀ {fs set : List String}, checkKeyFields m key fs set = .ok () →
    (∀ f ∈ fs, f ∈ m.map Prod.fst ∧ f ∉ set) ∧ fs.Nodup
  | [], set, _ => by simp
  | f :: fs, set, h => by
    simp only [checkKeyFields, Except.guard_eq_ok, not_not] at h
    obtain ⟨hm, hs, h⟩ := h
    obtain ⟨ih, hd⟩ := checkKeyFields_ok h
    refine ⟨fun g hg => ?_, List.nodup_cons.mpr ⟨fun hf => (ih f hf).2 (by simp), hd⟩⟩
    rcases List.mem_cons.mp hg with rfl | hg
    · exact ⟨hm, hs⟩
    · exact ⟨(ih g hg).1, fun hg' => (ih g hg).2 (List.mem_cons_of_mem f hg')⟩

structure KeyChecked (names : List String) (k : TableKey) : Prop where
  typed : k.type ≠ none
  nonempty : k.fields ≠ []
  nodup : k.fields.Nodup
  known : ∀ f ∈ k.fields, f ∈ names

theorem checkKey_ok {m : FieldMap} {keys : KeyMap} {cnt : Nat} {k : TableKey} (h : checkKey m keys cnt k = .ok ()) :
    k.name ∉ keys.map Prod.fst ∧ cnt ≤ 1 ∧ KeyChecked (m.map Prod.fst) k := by
  simp only [checkKey, Except.guard_eq_ok] at h
  obtain ⟨hn, ht, -, hc, he, hf⟩ := h
  obtain ⟨hm, hd⟩ := checkKeyFields_ok hf
  exact ⟨hn, by omega, ⟨ht, he, hd, fun f hf => (hm f hf).1⟩⟩

/-- the number of primary keys -/
def primaries (ks : List TableKey) : Nat := (ks.filter fun k => k.getType = .primary).length

theorem primaries_cons (k : TableKey) (ks : List TableKey) :
    primaries (k :: ks) = (if k.getType = .primary then 1 else 0) + primaries ks := by
  unfold primaries
  by_cases h : k.getType = .primary
  · simp only [h, decide_true, List.filter_cons_of_pos, List.length_cons, if_true]
    omega
  · simp [h]

theorem checkKeys_ok {m : FieldMap} : ∀ {ks : List TableKey} {keys keys' : KeyMap} {cnt : Nat}, cnt ≤ 1 →
    checkKeys m ks keys cnt = .ok keys' →
    (ks.map TableKey.name).Nodup ∧ (∀ k ∈ ks, k.name ∉ keys.map Prod.fst ∧ KeyChecked (m.map Prod.fst) k) ∧
      cnt + primaries ks ≤ 1 ∧ ∀ p ∈ keys', p ∈ keys ∨ ∃ k ∈ ks, p.2 = k.renamed
  | [], keys, keys', cnt, h1, h => by
    cases h
    simpa [primaries] using h1
  | k :: ks, keys, keys', cnt, h1, h => by
    obtain ⟨⟨⟩, hk, h⟩ := Except.bind_eq_ok.mp h
    obtain ⟨hn, hc, hkc⟩ := checkKey_ok hk
    obtain ⟨hd, ha, hp, hm⟩ := checkKeys_ok hc h
    have hout : ∀ g ∈ ks, g.name ≠ k.name ∧ g.name ∉ keys.map Prod.fst := fun g hg =>
      not_or.mp fun he => (ha g hg).1 (OrdMap.mem_keys_assign.mpr he)
    refine ⟨List.nodup_cons.mpr ⟨fun hg => ?_, hd⟩, fun g hg => ?_, ?_, fun p hp => ?_⟩
    · obtain ⟨g, hg, he⟩ := List.mem_map.mp hg
      exact (hout g hg).1 he
    · rcases List.mem_cons.mp hg with rfl | hg
      · exact ⟨hn, hkc⟩
      · exact ⟨(hout g hg).2, (ha g hg).2⟩
    · rw [primaries_cons]
      split at hp <;> simp_all
    · rcases hm p hp with hp | ⟨g, hg, he⟩
      · rcases OrdMap.of_mem_assign hp with rfl | hp
        · exact .inr ⟨k, by simp, rfl⟩
        · exact .inl hp
      · exact .inr ⟨g, List.mem_cons_of_mem k hg, he⟩

theorem checkAutoIncr_ok {keys : KeyMap} : ∀ {m : FieldMap}, checkAutoIncr keys m = .ok () →
    ∀ f ∈ m, f.2.autoIncr.isSome → ∃ k ∈ keys, f.1 ∈ k.2.fields
  | [], _ => by simp
  | g :: m, h => by
    simp only [checkAutoIncr, Except.guard_eq_ok] at h
    intro f hf ha
    rcases List.mem_cons.mp hf with rfl | hf
    · by_contra hc
      exact h.1 ⟨ha, hc⟩
    · exact checkAutoIncr_ok h.2 f hf ha

/-! ## A table that has passed -/

theorem TableKey.renamed_fields (k : TableKey) : k.renamed.fields = k.fields := by
  unfold renamed
  split <;> rfl

theorem TableKey.renamed_getType (k : TableKey) : k.renamed.getType = k.getType := by
  unfold renamed
  split <;> rfl

theorem TableKey.renamed_name (k : TableKey) :
    k.renamed.name = if k.getType = .primary then "PRIMARY" else k.name := by
  unfold renamed
  split <;> rfl

/-- What has been checked when `t` has passed and become `t'`. -/
structure Checked (t t' : MysqlTable) : Prop where
  result : t' = { t with keys := t.keys.map TableKey.renamed }
  fieldNames : (t.fields.map TableField.name).Nodup
  field : ∀ f ∈ t.fields, FieldChecked f
  keyNames : (t.keys.map TableKey.name).Nodup
  key : ∀ k ∈ t.keys, KeyChecked (t.fields.map TableField.name) k
  primary : primaries t.keys ≤ 1
  autoIncr : ∀ f ∈ t.fields, f.autoIncr.isSome → ∃ k ∈ t.keys, f.name ∈ k.fields

theorem mem_fieldMap_keys {fs : List TableField} (h : (fs.map TableField.name).Nodup) {n : String} :
    n ∈ (fieldMap fs).map Prod.fst ↔ n ∈ fs.map TableField.name := by
  refine ⟨fun hn => ?_, fun hn => ?_⟩
  · obtain ⟨x, hx, rfl⟩ := List.mem_map.mp hn
    have := (mem_fieldMap h).mp hx
    exact List.mem_map.mpr ⟨x.2, this.1, this.2⟩
  · obtain ⟨f, hf, rfl⟩ := List.mem_map.mp hn
    exact List.mem_map.mpr ⟨_, (mem_fieldMap h).mpr ⟨hf, rfl⟩, rfl⟩

theorem checkTable_ok {t t' : MysqlTable} (h : checkTable t = .ok t') : Checked t t' := by
  obtain ⟨m, hm, h₁⟩ := Except.bind_eq_ok.mp h
  obtain ⟨keys, hk, h₂⟩ := Except.bind_eq_ok.mp h₁
  obtain ⟨⟨⟩, ha, h₃⟩ := Except.bind_eq_ok.mp h₂
  obtain ⟨-, hd, -, hf⟩ := checkFields_ok hm
  rw [checkFields_map hm] at hk ha
  obtain ⟨hkd, hkc, hp, hks⟩ := checkKeys_ok (Nat.zero_le 1) hk
  cases h₃
  refine ⟨rfl, hd, hf, hkd, fun k hk => ?_, by omega, fun f hf hs => ?_⟩
  · obtain ⟨-, h1, h2, h3, h4⟩ := hkc k hk
    exact ⟨h1, h2, h3, fun n hn => (mem_fieldMap_keys hd).mp (h4 n hn)⟩
  · obtain ⟨p, hp, hpf⟩ := checkAutoIncr_ok ha _ ((mem_fieldMap hd).mpr ⟨hf, rfl⟩) hs
    obtain hp | ⟨k, hk, he⟩ := hks p hp
    · cases hp
    · exact ⟨k, hk, by rwa [he, TableKey.renamed_fields] at hpf⟩

theorem checkSchema_ok {s s' : MysqlSchema} (h : checkSchema s = .ok s') :
    List.Forall₂ (fun t t' => checkTable t = .ok t') s.tables s'.tables := by
  obtain ⟨ts, hts, h⟩ := Except.bind_eq_ok.mp h
  cases h
  exact Except.mapM_ok hts

theorem checkMysqlSyntax_ok {cfg cfg' : MysqlSchemaConf} (h : checkMysqlSyntax cfg = .ok cfg') :
    List.Forall₂ (fun s s' => List.Forall₂ (fun t t' => checkTable t = .ok t') s.tables s'.tables) cfg.mysqlSchemas
      cfg'.mysqlSchemas := by
  obtain ⟨ss, hss, h⟩ := Except.bind_eq_ok.mp h
  cases h
  exact (Except.mapM_ok hss).imp fun _ _ => checkSchema_ok

/-- The tables of the configurations that the check accepts, as it leaves them. -/
def Accepted (t' : MysqlTable) : Prop :=
  ∃ cfg cfg', checkMysqlSyntax cfg = .ok cfg' ∧ ∃ s ∈ cfg'.mysqlSchemas, t' ∈ s.tables

theorem Accepted.of_checkTable {t t' : MysqlTable} (h : checkTable t = .ok t') : Accepted t' := by
  refine ⟨{ mysqlSchemas := [{ tables := [t] }] }, { mysqlSchemas := [{ tables := [t'] }] }, ?_, _,
    List.mem_singleton_self _, List.mem_singleton_self _⟩
  simp only [checkMysqlSyntax, checkSchema, List.mapM_cons, List.mapM_nil, h]
  rfl

theorem Accepted.checked {t' : MysqlTable} (h : Accepted t') : ∃ t, Checked t t' := by
  obtain ⟨cfg, cfg', h, s', hs', ht'⟩ := h
  obtain ⟨s, -, hs⟩ := (checkMysqlSyntax_ok h).exists_left s' hs'
  obtain ⟨t, -, ht⟩ := hs.exists_left t' ht'
  exact ⟨t, checkTable_ok ht⟩

end GlobalServer.Dbtool
