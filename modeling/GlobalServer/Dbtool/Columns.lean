import GlobalServer.Dbtool.Stages
import GlobalServer.Dbtool.Frame

/-!
# The columns after a migration

Which names the columns have when the tool reports success, and what has
become of the data. Columns that are out of order are reported as a success,
since the function that finds them returns `false`; and a column that one
field deletes is dropped before another field can be renamed from it.
-/

namespace GlobalServer.Dbtool

variable {δ : Type} {cfg : MysqlTable}

theorem Checked.insertFields_nodup {t : MysqlTable} (h : Checked t cfg) : cfg.insertFields.Nodup := by
  have hd : (cfg.fields.map TableField.name).Nodup := by
    rw [h.result]
    exact h.fieldNames
  exact hd.sublist (List.filter_sublist.map _)

/-- The names of the columns that are not deleted, after the renaming. -/
def MysqlTable.kept (cfg : MysqlTable) (names : List String) : List String :=
  (names.filter (· ∉ cfg.deleted)).map (renamedTo cfg.renames)

/-- The keys before some are dropped. -/
def Stages.allKeys (cfg : MysqlTable) (s : Stages δ) : List Key :=
  s.added.keys ++ (cfg.newKeys s.added.sortedKeyNames).map TableKey.key

namespace Migrates

variable {s : Stages δ}

theorem result_columns (h : Migrates cfg s) : s.result.columns = s.added.columns.map (Column.settle (s.allKeys cfg)) :=
  (keyPlan_result h.keys).2

theorem modified_names (h : Migrates cfg s) : s.modified.names = cfg.kept s.start.names := by
  have hd := (deletePlan_result h.delete).1
  have hr := (renamePlan_result h.rename).1
  have hm := (modifyPlan_result h.modify).1
  unfold Table.names MysqlTable.kept
  rw [hm, hr, hd, List.map_map, List.map_map, List.filter_map, List.map_map]
  refine List.map_congr_left fun c _ => ?_
  simp only [Function.comp_apply, modifyColumn_name, renameColumn_name]

theorem result_names (h : Migrates cfg s) (hn : cfg.insertFields.Nodup) : s.result.names =
    if (cfg.kept s.start.names).Sublist cfg.insertFields then cfg.insertFields else cfg.kept s.start.names := by
  have hk : s.result.names = s.added.names := by
    unfold Table.names
    rw [h.result_columns, List.map_map]
    rfl
  rw [hk, ← h.modified_names]
  rcases addPlan_result hn h.known h.add with ⟨hs, he⟩ | ⟨hs, he, -⟩
  · rw [if_neg hs, he]
  · rw [if_pos hs, he]

theorem modified_column (h : Migrates cfg s) {d : Column δ} : d ∈ s.modified.columns ↔ ∃ c ∈ s.start.columns,
    c.name ∉ cfg.deleted ∧
      d = modifyColumn cfg.modifies s.renamed.keys (renameColumn cfg.renames s.deleted.keys c) := by
  rw [(modifyPlan_result h.modify).1, (renamePlan_result h.rename).1, (deletePlan_result h.delete).1, List.map_map]
  simp only [List.mem_map, List.mem_filter, decide_eq_true_eq, Function.comp_apply, and_assoc]
  exact exists_congr fun c => and_congr_right fun _ => and_congr_right fun _ => eq_comm

theorem column_kept (h : Migrates cfg s) (hn : cfg.insertFields.Nodup) {c : Column δ} (hc : c ∈ s.start.columns)
    (hcd : c.name ∉ cfg.deleted) : ∃ d ∈ s.result.columns, d.name = renamedTo cfg.renames c.name ∧ d.data = c.data := by
  have hm := h.modified_column.mpr ⟨c, hc, hcd, rfl⟩
  obtain ⟨e, he, hen, hed⟩ : ∃ e ∈ s.added.columns, e.name = renamedTo cfg.renames c.name ∧ e.data = c.data := by
    refine ⟨modifyColumn cfg.modifies s.renamed.keys (renameColumn cfg.renames s.deleted.keys c), ?_,
      by rw [modifyColumn_name, renameColumn_name], by rw [modifyColumn_data, renameColumn_data]⟩
    rcases addPlan_result hn h.known h.add with ⟨-, he⟩ | ⟨-, -, -, he⟩
    · exact he ▸ hm
    · exact (he _).mpr (.inl hm)
  exact ⟨e.settle (s.allKeys cfg), h.result_columns ▸ List.mem_map_of_mem he, hen, hed⟩

theorem column_from (h : Migrates cfg s) (hn : cfg.insertFields.Nodup) {d : Column δ} (hd : d ∈ s.result.columns) :
    d.data = none ∨ ∃ c ∈ s.start.columns, c.name ∉ cfg.deleted ∧ d.data = c.data := by
  rw [h.result_columns] at hd
  obtain ⟨e, he, rfl⟩ := List.mem_map.mp hd
  have hold : e ∈ s.modified.columns → ∃ c ∈ s.start.columns, c.name ∉ cfg.deleted ∧ e.data = c.data := by
    intro hm
    obtain ⟨c, hc, hcd, rfl⟩ := h.modified_column.mp hm
    exact ⟨c, hc, hcd, by rw [modifyColumn_data, renameColumn_data]⟩
  rcases addPlan_result hn h.known h.add with ⟨-, hs⟩ | ⟨-, -, -, hs⟩
  · exact .inr (hold (hs ▸ he))
  · rcases (hs _).mp he with he | ⟨n, -, -, rfl⟩
    · exact .inr (hold he)
    · exact .inl rfl

end Migrates

/-! ## A run that reports success -/

/-- The table that CREATE TABLE makes. -/
structure Created (cfg : MysqlTable) (t : Table δ) : Prop where
  columns : t.columns = cfg.newColumns.map fun c =>
    Column.settle cfg.wantKeys { name := c.1, defn := c.2, data := none }
  keys : t.keys = cfg.wantKeys

section
variable {my : Mysql} {db : Conn δ}

theorem createNewTable_ok (h : (my.createNewTable cfg db).1 = 0) : db.tables cfg.tableName = none ∧
    my.plain cfg.tableName = true ∧ ∃ t, Created cfg t ∧ (my.createNewTable cfg db).2.tables cfg.tableName = some t := by
  unfold Mysql.createNewTable Mysql.execute at h ⊢
  cases hs : my.accepts db (.createTable cfg.tableName cfg.newColumns cfg.keys) with
  | none => rw [hs] at h; simp at h
  | some s =>
    unfold Mysql.accepts at hs
    split at hs
    · rename_i hp
      simp only [Stmt.effect, Option.ite_none_right_eq_some, Option.map_eq_some_iff] at hs
      obtain ⟨hn, t, ht, rfl⟩ := hs
      obtain ⟨hc, hk⟩ := Table.make_eq_some ht
      refine ⟨hn, hp.2 _ (by simp [Stmt.bare]), t, ⟨?_, hk⟩, Function.update_self _ _ _⟩
      rw [hc, List.map_map]
      rfl
    · cases hs

theorem copyTable_plain {new old : String} (h : (my.copyTable new old db).1 = 0) :
    my.plain new = true ∧ my.plain old = true := by
  unfold Mysql.copyTable Mysql.execute at h
  simp only at h
  cases hs : my.accepts (my.dropTable new db).2 (.createLike new old) with
  | none => rw [hs] at h; simp at h
  | some s =>
    unfold Mysql.accepts at hs
    split at hs
    · rename_i hp
      exact ⟨hp.2 _ (by simp [Stmt.bare]), hp.2 _ (by simp [Stmt.bare])⟩
    · cases hs

theorem createTable_ok (h : (my.createTable cfg db).1.1 = 0) : (my.createTable cfg db).1.2 = cfg ∧
    my.plain cfg.tableName = true ∧ (db.tables cfg.tableName = none ∧
      (∃ t, Created cfg t ∧ (my.createTable cfg db).2.tables cfg.tableName = some t) ∨
    ∃ s, db.tables cfg.tableName = some s.start ∧ Migrates cfg s ∧ my.plain cfg.copyName = true ∧
      my.Takes cfg.tableName (s.alters cfg) ∧ (my.createTable cfg db).2.tables cfg.tableName = some s.result) := by
  have hne := cfg.copyName_ne.symm
  have h₀ := query_leaves my (fun m => m ≠ cfg.copyName) (fun s => ((s cfg.tableName).map Table.names).getD []) db
  have h₁ := (h₀.trans (dropTable_leaves my _ cfg.copyName)).trans (copyTable_leaves my cfg _)
  have h₂ := h₁.trans (changeTable_leaves my { cfg with tableName := cfg.copyName } _)
  have h₃ := (h₂.trans (dropTable_leaves my _ cfg.copyName)).tables _ hne
  unfold Mysql.createTable at h ⊢
  by_cases hq : (my.getTableFields cfg db).1.1 = 0
  swap
  · simp [hq] at h
  by_cases hf : (my.getTableFields cfg db).1.2 = []
  · simp only [hq, hf, ne_eq, not_true_eq_false, if_false, if_true] at h ⊢
    split at h
    · simp at h
    · rename_i hc
      obtain ⟨hn, hp, t, hcr, ht⟩ := createNewTable_ok (not_not.mp hc)
      rw [getTableFields_conn] at hn
      simp only [hc, if_false]
      exact ⟨trivial, hp, .inl ⟨hn, t, hcr, ht⟩⟩
  · simp only [hq, hf, ne_eq, not_true_eq_false, if_false] at h ⊢
    split at h
    · simp at h
    rename_i hc
    split at h
    · simp at h
    rename_i ht
    split at h
    · simp at h
    rename_i hm
    simp only [hc, ht, hm, if_false]
    obtain ⟨hpc, hpt⟩ := copyTable_plain (not_not.mp hc)
    refine ⟨trivial, hpt, .inr ?_⟩
    obtain ⟨t, htab⟩ := Option.ne_none_iff_exists'.mp (getTableFields_table my cfg db hq hf).1
    obtain ⟨s, hs, hmig, hsent⟩ := changeTable_ok (h₃.trans htab) (not_not.mp hm)
    exact ⟨s, hs ▸ htab, hmig, hpc, hsent.plain, hsent.table⟩

theorem Created.names {t : Table δ} (h : Created cfg t) : t.names = cfg.insertFields := by
  rw [Table.names, h.columns, List.map_map, MysqlTable.newColumns, List.map_map]
  rfl

/-! ## Names -/

/-- two columns in one order in the configuration and in the other in the table -/
def orderedTable : MysqlTable where
  tableName := "t"
  fields := [{ name := "a", type := some .int }, { name := "b", type := some .int }]

def swappedColumns : Table Unit where
  columns := [{ name := "b", defn := { type := "INT" }, data := some () },
    { name := "a", defn := { type := "INT" }, data := some () }]
  keys := []
  legal := by decide

def swappedConn : Conn Unit where
  tables := fun n => if n = "t" then some swappedColumns else none

theorem orderedTable_accepted : Accepted orderedTable := .of_checkTable (t := orderedTable) (by rfl)

/-- The data of the columns can be told apart. -/
structure Table.Marked (t : Table δ) : Prop where
  nodup : (t.columns.map Column.data).Nodup
  marked : ∀ c ∈ t.columns, c.data ≠ none

/-- The data of a column from which a field is renamed are in a column whose name the configuration gives them, and data
are gone only if their column is deleted and no field takes it over. -/
structure KeepsData (cfg : MysqlTable) (t t' : Table δ) : Prop where
  renamed : ∀ f ∈ cfg.liveFields, ∀ c ∈ t.columns, f.renameFrom = some c.name → f.name ∉ t.names →
    ∃ d ∈ t'.columns, d.data = c.data ∧ ∃ g ∈ cfg.liveFields, g.renameFrom = some c.name ∧ d.name = g.name
  discarded : ∀ c ∈ t.columns, (∀ d ∈ t'.columns, d.data ≠ c.data) →
    c.name ∈ cfg.deleted ∧ ∀ f ∈ cfg.liveFields, f.renameFrom = some c.name → f.name ∈ t.names

/-- A column that one field deletes and another one would be renamed from. -/
def MysqlTable.Conflict (cfg : MysqlTable) (names : List String) : Prop :=
  ∃ n ∈ names, n ∈ cfg.deleted ∧ ∃ f ∈ cfg.liveFields, f.renameFrom = some n ∧ f.name ∉ names

theorem mem_renames {n : String} {f : TableField} (h : cfg.renames.lookup n = some f) :
    f ∈ cfg.fields ∧ f.renameFrom = some n := by
  have hm := OrdMap.mem_of_lookup h
  obtain ⟨l₁, l₂, he, -⟩ := ((OrdMap.ofList_spec _).2 _).mp hm
  have : (n, f) ∈ cfg.fields.filterMap fun f => f.renameFrom.map fun old => (old, f) := he ▸ by simp
  obtain ⟨g, hg, hgf⟩ := List.mem_filterMap.mp this
  obtain ⟨old, ho, he⟩ := Option.map_eq_some_iff.mp hgf
  cases he
  exact ⟨hg, ho⟩

theorem renames_isSome {f : TableField} (hf : f ∈ cfg.fields) {n : String} (hn : f.renameFrom = some n) :
    ∃ g, cfg.renames.lookup n = some g := by
  have : n ∈ cfg.renames.map Prod.fst := by
    unfold MysqlTable.renames
    rw [OrdMap.mem_keys_ofList]
    exact List.mem_map.mpr ⟨(n, f), List.mem_filterMap.mpr ⟨f, hf, by simp [hn]⟩, rfl⟩
  obtain ⟨x, hx, rfl⟩ := List.mem_map.mp this
  exact ⟨x.2, (renames_sorted cfg).lookup_iff.mpr hx⟩

theorem mem_deleted {n : String} : n ∈ cfg.deleted ↔ ∃ f ∈ cfg.fields, f.isDelete = true ∧ f.name = n := by
  simp only [MysqlTable.deleted, List.mem_map, List.mem_filter, and_assoc]

theorem Migrates.keepsData_iff {s : Stages δ} (h : Migrates cfg s) {t₀ : MysqlTable} (hc : Checked t₀ cfg)
    (hmk : s.start.Marked) : KeepsData cfg s.start s.result ↔ ¬ cfg.Conflict s.start.names := by
  have hn := hc.insertFields_nodup
  refine ⟨fun hk ⟨n, hnt, hnd, f, hf, hfr, hfn⟩ => ?_, fun hno => ⟨fun f hf c hcm hfr hfn => ?_, fun c hcm hlost => ?_⟩⟩
  · -- the data of the conflict's column have no other place
    obtain ⟨c, hcm, rfl⟩ := List.mem_map.mp hnt
    obtain ⟨d, hd, hdc, -⟩ := hk.renamed f hf c hcm hfr hfn
    rcases h.column_from hn hd with hnone | ⟨e, he, hed, hde⟩
    · exact hmk.marked c hcm (hdc ▸ hnone)
    · rw [List.inj_on_of_nodup_map hmk.nodup he hcm (hde.symm.trans hdc)] at hed
      exact hed hnd
  · have hcd : c.name ∉ cfg.deleted := fun hcd => hno ⟨c.name, List.mem_map_of_mem hcm, hcd, f, hf, hfr, hfn⟩
    obtain ⟨d, hd, hdn, hdd⟩ := h.column_kept hn hcm hcd
    obtain ⟨g, hg⟩ := renames_isSome (List.mem_filter.mp hf).1 hfr
    obtain ⟨hgf, hgr⟩ := mem_renames hg
    have hdg : d.name = g.name := by simp [hdn, renamedTo, hg]
    refine ⟨d, hd, hdd, g, ?_, hgr, hdg⟩
    -- the field with the new name is not a deleted one
    have hin : g.name ∈ cfg.insertFields := by
      apply h.known
      rw [h.modified_names]
      refine List.mem_map.mpr ⟨c.name, List.mem_filter.mpr ⟨List.mem_map_of_mem hcm, by simpa using hcd⟩, ?_⟩
      simp [renamedTo, hg]
    obtain ⟨g', hg', he⟩ := List.mem_map.mp hin
    have hfields : (cfg.fields.map TableField.name).Nodup := by
      rw [hc.result]
      exact hc.fieldNames
    rwa [← List.inj_on_of_nodup_map hfields (List.mem_filter.mp hg').1 hgf he]
  · have hcd : c.name ∈ cfg.deleted := by
      by_contra hcd
      obtain ⟨d, hd, -, hdd⟩ := h.column_kept hn hcm hcd
      exact hlost d hd hdd
    refine ⟨hcd, fun f hf hfr => ?_⟩
    by_contra hfn
    exact hno ⟨c.name, List.mem_map_of_mem hcm, hcd, f, hf, hfr, hfn⟩

/-- A successful migration keeps the data exactly if no column is deleted by one field and to be renamed by another. -/
theorem createTable_keepsData_iff {t : Table δ} (ha : Accepted cfg) (ht : db.tables cfg.tableName = some t)
    (hm : t.Marked) (h : (my.createTable cfg db).1.1 = 0) :
    ∃ t', (my.createTable cfg db).2.tables cfg.tableName = some t' ∧ (KeepsData cfg t t' ↔ ¬ cfg.Conflict t.names) := by
  obtain ⟨t₀, hc⟩ := ha.checked
  obtain ⟨-, -, ⟨hn, -⟩ | ⟨s, hs, hmig, -, -, hres⟩⟩ := createTable_ok h
  · rw [hn] at ht
    cases ht
  · rw [hs] at ht
    cases ht
    exact ⟨s.result, hres, hmig.keepsData_iff hc hm⟩

end

/-- `x` is deleted, and `n` is to be renamed from it. -/
def conflictTable : MysqlTable where
  tableName := "t"
  fields := [{ name := "k", type := some .int }, { name := "x", type := some .int, isDelete := true },
    { name := "n", type := some .int, renameFrom := some "x" }]

def markedColumns : Table Nat where
  columns := [{ name := "k", defn := { type := "INT" }, data := some 0 },
    { name := "x", defn := { type := "INT" }, data := some 1 }]
  keys := []
  legal := by decide

def markedConn : Conn Nat where
  tables := fun n => if n = "t" then some markedColumns else none

def lostColumns : Table Nat where
  columns := [{ name := "k", defn := { type := "INT" }, data := some 0 },
    { name := "n", defn := { type := "INT" }, data := none }]
  keys := []
  legal := by decide

theorem conflictTable_accepted : Accepted conflictTable := .of_checkTable (t := conflictTable) (by rfl)

theorem markedColumns_marked : markedColumns.Marked := ⟨by decide, by decide⟩

/-- The data of `x` are gone, though `n` is to be renamed from it. -/
theorem createTable_loses_data : ¬ ∀ (my : Mysql) (cfg : MysqlTable) (db : Conn Nat) (t t' : Table Nat), Accepted cfg →
    db.tables cfg.tableName = some t → t.Marked → (my.createTable cfg db).1.1 = 0 →
    (my.createTable cfg db).2.tables cfg.tableName = some t' → KeepsData cfg t t' := by
  intro h
  have := (h .calm conflictTable markedConn markedColumns lostColumns conflictTable_accepted rfl markedColumns_marked
    (by decide) (by decide)).discarded { name := "x", defn := { type := "INT" }, data := some 1 } (by decide) (by decide)
  revert this
  decide

theorem createTable_keepsData_conflict :
    ∃ t', (Mysql.calm.createTable conflictTable markedConn).2.tables "t" = some t' ∧
      (KeepsData conflictTable markedColumns t' ↔ ¬ conflictTable.Conflict markedColumns.names) :=
  createTable_keepsData_iff conflictTable_accepted rfl markedColumns_marked (by decide)

end GlobalServer.Dbtool
