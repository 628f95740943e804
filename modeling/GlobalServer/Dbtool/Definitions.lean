import GlobalServer.Dbtool.Columns
import GlobalServer.Dbtool.Keys

/-!
# The definitions of the columns after a migration

CREATE TABLE writes all of a definition, the statements that rename, modify and
add a column write its type alone. What they leave out is what the column then
lacks, up to NOT NULL for the columns of the primary key.
-/

namespace GlobalServer.Dbtool

variable {δ : Type} {cfg : MysqlTable}

/-- the column that the clause gives a definition -/
def Alter.touches : Alter → Option String
  | change _ new _ => some new
  | modify name _ => some name
  | addColumn name _ _ => some name
  | _ => none

/-! ## The primary key -/

/-- The columns of the primary key that the table keeps. -/
def MysqlTable.keptPrimary (cfg : MysqlTable) (t : Table δ) : List String :=
  ((primaryColumns t.keys).filter (· ∉ cfg.deleted)).map (renamedTo cfg.renames)

/-- The columns of the primary key that the table has before keys are dropped: one that it has is not changed. -/
def MysqlTable.lastPrimary (cfg : MysqlTable) (t : Table δ) : List String :=
  if cfg.keptPrimary t = [] then primaryColumns cfg.wantKeys else cfg.keptPrimary t

theorem mem_primaryColumns_key {ks : List TableKey} {n : String} :
    n ∈ primaryColumns (ks.map TableKey.key) ↔ ∃ k ∈ ks, k.getType = .primary ∧ n ∈ k.fields := by
  rw [mem_primaryColumns]
  refine ⟨fun ⟨k, hk, hp, hn⟩ => ?_, fun ⟨k, hk, hp, hn⟩ => ⟨k.key, List.mem_map_of_mem hk, hp, hn⟩⟩
  obtain ⟨c, hc, rfl⟩ := List.mem_map.mp hk
  exact ⟨c, hc, hp, hn⟩

theorem Table.primary_iff (t : Table δ) : primaryColumns t.keys = [] ↔ "PRIMARY" ∉ t.keyNames := by
  refine ⟨fun h hn => ?_, fun h => ?_⟩
  · obtain ⟨k, hk, he⟩ := List.mem_map.mp hn
    obtain ⟨n, hkn⟩ := List.exists_mem_of_ne_nil _ (t.legal.keyColumns k hk).1
    have : n ∈ primaryColumns t.keys := mem_primaryColumns.mpr ⟨k, hk, (t.legal.primary k hk).mpr he, hkn⟩
    rw [h] at this
    cases this
  · apply List.eq_nil_iff_forall_not_mem.mpr
    intro n hn
    obtain ⟨k, hk, hp, -⟩ := mem_primaryColumns.mp hn
    exact h (List.mem_map.mpr ⟨k, hk, (t.legal.primary k hk).mp hp⟩)

namespace Migrates

variable {s : Stages δ}

theorem renamed_primary (h : Migrates cfg s) : primaryColumns s.renamed.keys = cfg.keptPrimary s.start := by
  rw [(renamePlan_result h.rename).2, primaryColumns_map, (deletePlan_result h.delete).2, primaryColumns_without]
  rfl

theorem added_keys (h : Migrates cfg s) (hn : cfg.insertFields.Nodup) : s.added.keys = s.renamed.keys := by
  rw [← (modifyPlan_result h.modify).2]
  rcases addPlan_result hn h.known h.add with ⟨-, he⟩ | ⟨-, -, he, -⟩
  · rw [he]
  · exact he

theorem mem_allKeys_primary (h : Migrates cfg s) {t₀ : MysqlTable} (hc : Checked t₀ cfg) (n : String) :
    n ∈ primaryColumns (s.allKeys cfg) ↔ n ∈ cfg.lastPrimary s.start := by
  have hp : primaryColumns s.added.keys = cfg.keptPrimary s.start := by
    rw [h.added_keys hc.insertFields_nodup, h.renamed_primary]
  have hname : ∀ k ∈ cfg.keys, k.getType = .primary → k.name = "PRIMARY" := by
    intro k hk hkp
    rw [← hc.key_name hk, TableKey.key, if_pos hkp]
  have hnew : n ∈ primaryColumns ((cfg.newKeys s.added.sortedKeyNames).map TableKey.key) ↔
      n ∈ primaryColumns cfg.wantKeys ∧ "PRIMARY" ∉ s.added.keyNames := by
    simp only [MysqlTable.wantKeys, mem_primaryColumns_key, MysqlTable.newKeys, List.mem_filter, decide_eq_true_eq,
      Table.mem_sortedKeyNames]
    refine ⟨fun h => ?_, fun h => ?_⟩
    · obtain ⟨k, ⟨hk, hkn⟩, hkp, hn⟩ := h
      exact ⟨⟨k, hk, hkp, hn⟩, hname k hk hkp ▸ hkn⟩
    · obtain ⟨⟨k, hk, hkp, hn⟩, hno⟩ := h
      exact ⟨k, ⟨hk, (hname k hk hkp).symm ▸ hno⟩, hkp, hn⟩
  rw [Stages.allKeys, primaryColumns_append, List.mem_append, hnew, hp, MysqlTable.lastPrimary,
    ← Table.primary_iff, hp]
  split
  · rename_i he
    simp [he]
  · rename_i he
    simp [he]

/-! ## The columns that were touched -/

end Migrates

/-- The field whose column a migration of a table with these columns renames, modifies or adds. -/
def MysqlTable.Touches (cfg : MysqlTable) (names : List String) (f : TableField) : Prop :=
  (∃ old ∈ names, old ∉ cfg.deleted ∧ cfg.renames.lookup old = some f) ∨
  (f.modifyType.isSome ∧ f.name ∈ cfg.kept names) ∨
  (f.name ∉ cfg.kept names ∧ (cfg.kept names).Sublist cfg.insertFields)

theorem Checked.fields_nodup {t : MysqlTable} (h : Checked t cfg) : (cfg.fields.map TableField.name).Nodup := by
  rw [h.result]
  exact h.fieldNames

theorem Checked.field_of_name {t : MysqlTable} (h : Checked t cfg) {f g : TableField} (hf : f ∈ cfg.fields)
    (hg : g ∈ cfg.fields) (he : f.name = g.name) : f = g :=
  List.inj_on_of_nodup_map h.fields_nodup hf hg he

theorem Checked.mem_liveFields {t : MysqlTable} (h : Checked t cfg) {f : TableField} (hf : f ∈ cfg.fields)
    (hn : f.name ∈ cfg.insertFields) : f ∈ cfg.liveFields := by
  obtain ⟨g, hg, he⟩ := List.mem_map.mp hn
  exact h.field_of_name (List.mem_filter.mp hg).1 hf he ▸ hg

theorem fieldMap_lookup {fs : List TableField} (h : (fs.map TableField.name).Nodup) {n : String} {f : TableField} :
    (fieldMap fs).lookup n = some f ↔ f ∈ fs ∧ f.name = n := by
  rw [fieldMap, (OrdMap.ofList_spec _).1.lookup_iff]
  exact mem_fieldMap h

theorem Checked.mem_modifies {t : MysqlTable} (h : Checked t cfg) {n : String} {f : TableField} :
    cfg.modifies.lookup n = some f ↔ f ∈ cfg.fields ∧ f.modifyType.isSome ∧ f.name = n := by
  have hd : ((cfg.fields.filter fun f => f.modifyType.isSome).map TableField.name).Nodup :=
    h.fields_nodup.sublist (List.filter_sublist.map _)
  rw [show cfg.modifies = fieldMap (cfg.fields.filter fun f => f.modifyType.isSome) from rfl, fieldMap_lookup hd,
    List.mem_filter, and_assoc]

theorem Checked.insertFieldMap_lookup {t : MysqlTable} (h : Checked t cfg) {f : TableField} (hf : f ∈ cfg.liveFields) :
    cfg.insertFieldMap.lookup f.name = some f := by
  exact (fieldMap_lookup h.insertFields_nodup).mpr ⟨hf, rfl⟩

/-- What a migration writes into the definition of the field's column. -/
def MysqlTable.migratedType (cfg : MysqlTable) (names : List String) (f : TableField) : String :=
  if f.modifyType.isSome ∧ f.name ∈ cfg.kept names then getFieldModifyTypeDesc f else getFieldTypeDesc f

theorem mem_addClauses {old : List String} {n : String} : ∀ {l : List String} {before : Option String},
    (∃ a ∈ cfg.addClauses old before l, a.touches = some n) ↔ n ∈ l ∧ n ∉ old
  | [], before => by simp [MysqlTable.addClauses]
  | m :: l, before => by
    rw [MysqlTable.addClauses]
    simp only [List.mem_append, or_and_right, exists_or, mem_addClauses (l := l), List.mem_cons]
    by_cases hm : m ∈ old
    · simp only [hm, if_true, List.not_mem_nil, false_and, exists_false, false_or]
      exact ⟨.inr, fun h => h.resolve_left fun he => he.2 (he.1 ▸ hm)⟩
    · simp only [hm, if_false, List.mem_singleton, exists_eq_left, Alter.touches, Option.some.injEq]
      exact or_congr_left ⟨fun he => ⟨he.symm, he ▸ hm⟩, fun h => h.1.symm⟩

namespace Migrates

variable {s : Stages δ} {t₀ : MysqlTable}

theorem mem_kept {names : List String} {old : String} {f : TableField} (hold : old ∈ names) (hd : old ∉ cfg.deleted)
    (hl : cfg.renames.lookup old = some f) : f.name ∈ cfg.kept names :=
  List.mem_map.mpr ⟨old, List.mem_filter.mpr ⟨hold, by simpa using hd⟩, by simp [renamedTo, hl]⟩

theorem renamed_names (h : Migrates cfg s) : s.renamed.names = cfg.kept s.start.names := by
  rw [← h.modified_names, Table.names, Table.names, (modifyPlan_result h.modify).1, List.map_map]
  exact List.map_congr_left fun c _ => (modifyColumn_name _ _ c).symm

theorem touches_live (h : Migrates cfg s) (hc : Checked t₀ cfg) {f : TableField} (hf : f ∈ cfg.fields)
    (hk : f.name ∈ cfg.kept s.start.names) : f ∈ cfg.liveFields :=
  hc.mem_liveFields hf (h.known _ (h.modified_names ▸ hk))

theorem not_deletePlan_touches (names : List String) (n : String) :
    ¬ ∃ a ∈ cfg.deletePlan names, a.touches = some n := by
  intro h
  obtain ⟨a, ha, hat⟩ := h
  unfold MysqlTable.deletePlan at ha
  split at ha
  · cases ha
  · rw [List.mem_singleton.mp ha] at hat
    cases hat

theorem not_keyPlan_touches (names : List String) (n : String) : ¬ ∃ a ∈ cfg.keyPlan names, a.touches = some n := by
  intro h
  obtain ⟨a, ha, hat⟩ := h
  rcases List.mem_append.mp ha with ha | ha
  · obtain ⟨k, -, rfl⟩ := List.mem_map.mp ha
    cases hat
  · obtain ⟨k, -, rfl⟩ := List.mem_map.mp ha
    cases hat

theorem renamePlan_touches (h : Migrates cfg s) (hc : Checked t₀ cfg) {n : String} :
    (∃ a ∈ cfg.renamePlan s.deleted.names, a.touches = some n) ↔ ∃ f ∈ cfg.liveFields, f.name = n ∧
      ∃ old ∈ s.start.names, old ∉ cfg.deleted ∧ cfg.renames.lookup old = some f := by
  have hdel : s.deleted.names = s.start.names.filter (· ∉ cfg.deleted) := by
    rw [Table.names, (deletePlan_result h.delete).1, Table.names, List.filter_map]
    rfl
  constructor
  · intro ht
    obtain ⟨a, ha, hat⟩ := ht
    obtain ⟨x, hx, rfl⟩ := List.mem_map.mp ha
    obtain ⟨hx, hxd⟩ := List.mem_filter.mp hx
    have hl := (renames_sorted cfg).lookup_iff.mpr hx
    rw [hdel] at hxd
    obtain ⟨hxn, hxd⟩ := List.mem_filter.mp (of_decide_eq_true hxd)
    have hxd : x.1 ∉ cfg.deleted := of_decide_eq_true hxd
    exact ⟨x.2, h.touches_live hc (mem_renames hl).1 (mem_kept hxn hxd hl), Option.some.inj hat, x.1, hxn, hxd, hl⟩
  · intro ht
    obtain ⟨f, hf, hfn, old, hold, hod, hl⟩ := ht
    refine ⟨_, List.mem_map.mpr ⟨(old, f), List.mem_filter.mpr ⟨OrdMap.mem_of_lookup hl, ?_⟩, rfl⟩, congrArg some hfn⟩
    rw [hdel]
    exact decide_eq_true (List.mem_filter.mpr ⟨hold, by simpa using hod⟩)

theorem modifyPlan_touches (h : Migrates cfg s) (hc : Checked t₀ cfg) {n : String} :
    (∃ a ∈ cfg.modifyPlan s.renamed.names, a.touches = some n) ↔ ∃ f ∈ cfg.liveFields, f.name = n ∧
      f.modifyType.isSome ∧ f.name ∈ cfg.kept s.start.names := by
  rw [h.renamed_names]
  constructor
  · intro ht
    obtain ⟨a, ha, hat⟩ := ht
    obtain ⟨x, hx, rfl⟩ := List.mem_map.mp ha
    obtain ⟨hx, hxk⟩ := List.mem_filter.mp hx
    have hxk : x.1 ∈ cfg.kept s.start.names := of_decide_eq_true hxk
    obtain ⟨hxf, hxm, hxn⟩ := hc.mem_modifies.mp
      ((OrdMap.ofList_spec _).1.lookup_iff.mpr hx)
    rw [← hxn] at hxk
    exact ⟨x.2, h.touches_live hc hxf hxk, hxn.trans (Option.some.inj hat), hxm, hxk⟩
  · intro ht
    obtain ⟨f, hf, hfn, hfm, hfk⟩ := ht
    refine ⟨_, List.mem_map.mpr ⟨(f.name, f), List.mem_filter.mpr ⟨?_, decide_eq_true hfk⟩, rfl⟩, congrArg some hfn⟩
    exact OrdMap.mem_of_lookup (hc.mem_modifies.mpr ⟨(List.mem_filter.mp hf).1, hfm, rfl⟩)

theorem addPlan_touches (h : Migrates cfg s) (hc : Checked t₀ cfg) {n : String} :
    (∃ a ∈ cfg.addPlan s.modified.names, a.touches = some n) ↔ ∃ f ∈ cfg.liveFields, f.name = n ∧
      f.name ∉ cfg.kept s.start.names ∧ (cfg.kept s.start.names).Sublist cfg.insertFields := by
  have hsub := Weave.nodup_merge_iff hc.insertFields_nodup h.known
  rw [h.modified_names] at hsub ⊢
  unfold MysqlTable.addPlan MysqlTable.newTableFields
  split
  · rename_i hm
    rw [Weave.merge_of_sublist (hsub.mp hm), mem_addClauses]
    constructor
    · intro ht
      obtain ⟨hn, hk⟩ := ht
      obtain ⟨f, hf, rfl⟩ := List.mem_map.mp hn
      exact ⟨f, hf, rfl, hk, hsub.mp hm⟩
    · intro ht
      obtain ⟨f, hf, hfn, hfk, -⟩ := ht
      exact hfn ▸ ⟨List.mem_map_of_mem hf, hfk⟩
  · rename_i hm
    refine iff_of_false (fun ht => ?_) fun ht => ?_
    · obtain ⟨a, ha, -⟩ := ht
      cases ha
    · obtain ⟨f, -, -, -, hs⟩ := ht
      exact hm (hsub.mpr hs)

theorem alters_touch (h : Migrates cfg s) (hc : Checked t₀ cfg) {n : String} :
    (∃ a ∈ s.alters cfg, a.touches = some n) ↔ ∃ f ∈ cfg.liveFields, f.name = n ∧ cfg.Touches s.start.names f := by
  simp only [Stages.alters, List.mem_append, or_and_right, exists_or, not_deletePlan_touches, not_keyPlan_touches,
    h.renamePlan_touches hc, h.modifyPlan_touches hc, h.addPlan_touches hc, false_or, or_false, MysqlTable.Touches,
    and_or_left, or_assoc]

theorem touched_added (h : Migrates cfg s) (hc : Checked t₀ cfg) {f : TableField} (hf : f ∈ cfg.liveFields)
    (ht : cfg.Touches s.start.names f) : ∃ c ∈ s.added.columns, c.name = f.name ∧
      (c.defn.type = cfg.migratedType s.start.names f ∧ c.defn.autoIncr = false ∧ c.defn.default = "") ∧
      (c.defn.notNull = true → f.name ∈ cfg.keptPrimary s.start) := by
  have hprim := h.renamed_primary
  have hold : ∀ c ∈ s.modified.columns, c ∈ s.added.columns := fun c hcm => by
    rcases addPlan_result hc.insertFields_nodup h.known h.add with ⟨-, he⟩ | ⟨-, -, -, he⟩
    · exact he ▸ hcm
    · exact (he c).mpr (.inl hcm)
  rcases ht with ⟨old, holdn, hd, hl⟩ | ⟨hm, hk⟩ | ⟨hk, hsub⟩
  · -- renamed: `modify_type` is not there as well
    obtain ⟨c, hcm, rfl⟩ := List.mem_map.mp holdn
    have hr := (mem_renames hl).2
    have hfm : ¬ f.modifyType.isSome := fun hm => by
      have hex := (hc.field f (by have := (List.mem_filter.mp hf).1; rwa [hc.result] at this)).exclusive
      exact hex ⟨by simp [hr], hm⟩
    have hml : cfg.modifies.lookup f.name = none := by
      by_contra hne
      obtain ⟨g, hg⟩ := Option.ne_none_iff_exists'.mp hne
      obtain ⟨hgf, hgm, hgn⟩ := hc.mem_modifies.mp hg
      exact hfm (hc.field_of_name hgf (List.mem_filter.mp hf).1 hgn ▸ hgm)
    refine ⟨c.redefine s.deleted.keys f.name (getFieldTypeDesc f), hold _ (h.modified_column.mpr ⟨c, hcm, hd, ?_⟩), rfl,
      ⟨?_, rfl, rfl⟩, fun hn => ?_⟩
    · have hrc : renameColumn cfg.renames s.deleted.keys c = c.redefine s.deleted.keys f.name (getFieldTypeDesc f) := by
        simp [renameColumn, hl]
      rw [hrc, modifyColumn]
      simp [Column.redefine, hml]
    · simp [MysqlTable.migratedType, hfm, Column.redefine]
    · have hp : c.name ∈ primaryColumns s.deleted.keys := of_decide_eq_true hn
      rw [← hprim, (renamePlan_result h.rename).2, primaryColumns_map]
      exact List.mem_map.mpr ⟨c.name, hp, by simp [renamedTo, hl]⟩
  · -- modified
    have hmn : f.name ∈ s.renamed.names := h.renamed_names ▸ hk
    obtain ⟨c, hcm, hcn⟩ := List.mem_map.mp hmn
    have hml : cfg.modifies.lookup c.name = some f :=
      hc.mem_modifies.mpr ⟨(List.mem_filter.mp hf).1, hm, hcn.symm⟩
    refine ⟨c.redefine s.renamed.keys c.name (getFieldModifyTypeDesc f), hold _ ?_, hcn, ⟨?_, rfl, rfl⟩, fun hn => ?_⟩
    · rw [(modifyPlan_result h.modify).1]
      exact List.mem_map.mpr ⟨c, hcm, by simp [modifyColumn, hml]⟩
    · simp [MysqlTable.migratedType, hm, hk, Column.redefine]
    · have hp : c.name ∈ primaryColumns s.renamed.keys := of_decide_eq_true hn
      rwa [hprim, hcn] at hp
  · -- added
    have hnot : f.name ∉ s.modified.names := h.modified_names ▸ hk
    rcases addPlan_result hc.insertFields_nodup h.known h.add with ⟨hs, -⟩ | ⟨-, -, -, he⟩
    · exact absurd (h.modified_names ▸ hsub) hs
    · refine ⟨cfg.addedColumn f.name, (he _).mpr (.inr ⟨f.name, List.mem_map_of_mem hf, hnot, rfl⟩), rfl,
        ⟨?_, rfl, rfl⟩, fun hn => by cases hn⟩
      simp [MysqlTable.addedColumn, MysqlTable.migratedType, hk, hc.insertFieldMap_lookup hf]

theorem touched_column (h : Migrates cfg s) (hc : Checked t₀ cfg) {f : TableField} (hf : f ∈ cfg.liveFields)
    (ht : cfg.Touches s.start.names f) : ∃ c ∈ s.result.columns, c.name = f.name ∧
      c.defn = { type := cfg.migratedType s.start.names f, notNull := f.name ∈ cfg.lastPrimary s.start } := by
  obtain ⟨c, hcm, hn, ⟨h₁, h₂, h₃⟩, hnn⟩ := h.touched_added hc hf ht
  refine ⟨c.settle (s.allKeys cfg), h.result_columns ▸ List.mem_map_of_mem hcm, hn, ?_⟩
  have hp := h.mem_allKeys_primary hc f.name
  have hnot : (c.defn.notNull || decide (f.name ∈ primaryColumns (s.allKeys cfg))) =
      decide (f.name ∈ cfg.lastPrimary s.start) := by
    rw [show decide (f.name ∈ primaryColumns (s.allKeys cfg)) = decide (f.name ∈ cfg.lastPrimary s.start) from
      decide_eq_decide.mpr hp]
    cases hcn : c.defn.notNull with
    | false => simp
    | true =>
      have hk := hnn hcn
      have : cfg.keptPrimary s.start ≠ [] := List.ne_nil_of_mem hk
      simp [MysqlTable.lastPrimary, this, hk]
  simp only [Column.settle, Column.implied, h₁, h₂, h₃, hn, Bool.false_or, hnot]

end Migrates

theorem Created.column {t : Table δ} (h : Created cfg t) {f : TableField} (hf : f ∈ cfg.liveFields) :
    ∃ c ∈ t.columns, c.name = f.name ∧ c.defn = { MysqlTable.columnDef f with
      notNull := f.notNull || (f.getAutoIncr || decide (f.name ∈ primaryColumns cfg.wantKeys)) } := by
  refine ⟨Column.settle cfg.wantKeys { name := f.name, defn := MysqlTable.columnDef f, data := none }, ?_, rfl, rfl⟩
  rw [h.columns, MysqlTable.newColumns, List.map_map]
  exact List.mem_map.mpr ⟨f, hf, rfl⟩

/-! ## The two ways to a table -/

theorem fieldTypeDesc_varchar (f : TableField) : (fieldTypeDesc f .varchar).toList.head? = some 'V' := by
  simp [fieldTypeDesc]

theorem fieldTypeDesc_inj (f : TableField) {a b : MysqlFieldType} (h : fieldTypeDesc f a = fieldTypeDesc f b) : a = b := by
  have hv : ∀ c, fieldTypeDesc f .varchar = fieldTypeDesc f c → c = .varchar := by
    intro c hc
    have hh := fieldTypeDesc_varchar f
    rw [hc] at hh
    cases c <;> first | rfl | (revert hh; simp only [fieldTypeDesc]; decide)
  cases a <;> cases b <;> first | rfl | exact (hv _ h).symm | exact hv _ h.symm | (revert h; simp only [fieldTypeDesc]; decide)

/-- The columns with these names are defined as in the other table. -/
def SameDefinitions (ns : List String) (t t' : Table δ) : Prop :=
  ∀ c ∈ t.columns, c.name ∈ ns → ∃ d ∈ t'.columns, d.name = c.name ∧ d.defn = c.defn

/-- The names of the columns that the statements of a migration give a definition. -/
def Mysql.touched (my : Mysql) (cfg : MysqlTable) (db : Conn δ) : List String :=
  ((my.changeTable cfg db).2.done.drop db.done.length).filterMap fun e =>
    match e.1 with
    | .alter n a => if n = cfg.tableName then a.touches else none
    | _ => none

/-- The field asks for no more than its type, or for what the table has anyway. -/
structure TypeOnly (cfg : MysqlTable) (t : Table δ) (f : TableField) : Prop where
  type : f.modifyType.isSome → f.name ∈ cfg.kept t.names → f.getModifyType = f.getType
  autoIncr : f.getAutoIncr = false
  default : f.default = ""
  notNull : f.notNull = true ∨ f.name ∈ primaryColumns cfg.wantKeys ↔ f.name ∈ cfg.lastPrimary t

theorem typeOnly_iff {t : Table δ} {f : TableField} : TypeOnly cfg t f ↔
    ({ MysqlTable.columnDef f with
      notNull := f.notNull || (f.getAutoIncr || decide (f.name ∈ primaryColumns cfg.wantKeys)) } : ColumnDef) =
    { type := cfg.migratedType t.names f, notNull := f.name ∈ cfg.lastPrimary t } := by
  simp only [MysqlTable.columnDef, ColumnDef.mk.injEq]
  have htype : getFieldTypeDesc f = cfg.migratedType t.names f ↔
      (f.modifyType.isSome → f.name ∈ cfg.kept t.names → f.getModifyType = f.getType) := by
    unfold MysqlTable.migratedType
    split
    · rename_i hm
      refine ⟨fun he _ _ => (fieldTypeDesc_inj f he).symm, fun he => ?_⟩
      unfold getFieldTypeDesc getFieldModifyTypeDesc
      rw [he hm.1 hm.2]
    · rename_i hm
      exact iff_of_true rfl fun h₁ h₂ => absurd ⟨h₁, h₂⟩ hm
  refine ⟨fun ⟨h₁, h₂, h₃, h₄⟩ => ⟨htype.mpr h₁, ?_, h₂, h₃⟩, fun ⟨h₁, h₂, h₃, h₄⟩ => ⟨htype.mp h₁, h₃, h₄, ?_⟩⟩
  · rw [h₂, Bool.false_or, ← decide_eq_decide.mpr h₄, Bool.decide_or, Bool.decide_eq_true]
  · rw [h₃, Bool.false_or] at h₂
    rw [← decide_eq_decide, ← h₂, Bool.decide_or, Bool.decide_eq_true]

section
variable {my my' : Mysql} {db db' : Conn δ} {t : Table δ}

theorem mem_touched {s : Stages δ} (h : Migrates cfg s) {t₀ : MysqlTable} (hc : Checked t₀ cfg)
    (hs : Sent my cfg.tableName (s.alters cfg) s.result db (my.changeTable cfg db).2) {n : String} :
    n ∈ my.touched cfg db ↔ ∃ f ∈ cfg.liveFields, f.name = n ∧ cfg.Touches s.start.names f := by
  obtain ⟨new, hnew, hst⟩ := hs.done
  rw [← h.alters_touch hc, Mysql.touched, hnew, List.drop_left', List.mem_filterMap]
  swap
  · rfl
  refine ⟨fun ⟨e, he, hen⟩ => ?_, fun ⟨a, ha, hat⟩ => ?_⟩
  · have : e.1 ∈ (s.alters cfg).map (.alter cfg.tableName) := hst ▸ List.mem_map_of_mem he
    obtain ⟨a, ha, hae⟩ := List.mem_map.mp this
    rw [← hae] at hen
    exact ⟨a, ha, by simpa using hen⟩
  · have : Stmt.alter cfg.tableName a ∈ new.map Prod.fst := hst ▸ List.mem_map_of_mem ha
    obtain ⟨e, he, hea⟩ := List.mem_map.mp this
    exact ⟨e, he, by simpa [hea] using hat⟩

end

/-- `b` is NOT NULL, and not in the table yet. -/
def notNullTable : MysqlTable where
  tableName := "t"
  fields := [{ name := "a", type := some .int }, { name := "b", type := some .int, notNull := true }]

def migratedColumns : Table Unit where
  columns := [{ name := "a", defn := { type := "INT" }, data := some () },
    { name := "b", defn := { type := "INT" }, data := none }]
  keys := []
  legal := by decide

def createdColumns : Table Unit where
  columns := [{ name := "a", defn := { type := "INT" }, data := none },
    { name := "b", defn := { type := "INT", notNull := true }, data := none }]
  keys := []
  legal := by decide

def oneColumnConn : Conn Unit where
  tables := fun n => if n = "t" then some oneColumn else none

def emptyConn : Conn Unit where
  tables := fun _ => none

theorem notNullTable_accepted : Accepted notNullTable := .of_checkTable (t := notNullTable) (by rfl)

end GlobalServer.Dbtool
