import GlobalServer.Dbtool.Definitions

/-!
# The same configuration a second time

A second run finds the table that the first one has left. It renames the
columns of that table by names that may now be those of other fields, and it
modifies what it has only just created.
-/

namespace GlobalServer.Dbtool

variable {δ : Type} {cfg : MysqlTable}

/-! ## A table that a migration does not change -/

structure Steady (cfg : MysqlTable) (u : Table δ) : Prop where
  known : ∀ n ∈ u.names, n ∈ cfg.insertFields
  renames : ∀ f ∈ cfg.fields, ∀ x, f.renameFrom = some x → x ∉ u.names
  modifies : ∀ c ∈ u.columns, modifyColumn cfg.modifies u.keys c = c
  order : u.names = cfg.insertFields ∨ ¬ u.names.Sublist cfg.insertFields
  keyNames : ∀ n, n ∈ u.keyNames ↔ n ∈ cfg.keys.map TableKey.name

theorem Table.make_self (u : Table δ) : Table.make u.columns u.keys = some u := by
  have hs : u.columns.map (Column.settle u.keys) = u.columns := u.settle_columns fun _ h => h
  unfold Table.make
  rw [dif_pos (by rw [hs]; exact u.legal)]
  exact congrArg some (Table.ext hs rfl)

theorem modify_self {u : Table δ} {n type : String} (hn : n ∈ u.names)
    (h : ∀ c ∈ u.columns, c.name = n → c.redefine u.keys n type = c) : Alter.apply u (.modify n type) = some u := by
  have hc : (u.columns.map fun c => if c.name = n then { c with defn := { type } } else c).map (Column.settle u.keys) =
      u.columns := by
    rw [List.map_map, List.map_congr_left (g := id)]
    · exact List.map_id _
    · intro c hcm
      simp only [Function.comp_apply]
      by_cases hcn : c.name = n
      · rw [if_pos hcn]
        refine Eq.trans ?_ (h c hcm hcn)
        simp [Column.settle, Column.implied, Column.redefine, hcn]
      · rw [if_neg hcn]
        exact Column.settle_eq_self (u.legal.notNull c hcm)
  simp only [Alter.apply, if_pos hn, Table.make]
  rw [dif_pos (by rw [hc]; exact u.legal)]
  exact congrArg some (Table.ext hc rfl)

theorem applyAll_self {u : Table δ} : ∀ {l : List Alter}, (∀ a ∈ l, Alter.apply u a = some u) → applyAll l u = some u
  | [], _ => rfl
  | a :: l, h => by
    rw [applyAll, h a (by simp), Option.bind_some, applyAll_self fun b hb => h b (List.mem_cons_of_mem a hb)]

theorem addClauses_self {old : List String} : ∀ {l : List String} {before : Option String}, (∀ n ∈ l, n ∈ old) →
    cfg.addClauses old before l = []
  | [], _, _ => rfl
  | n :: l, before, h => by
    rw [MysqlTable.addClauses, if_pos (h n (by simp)), addClauses_self fun m hm => h m (List.mem_cons_of_mem n hm)]
    rfl

namespace Steady

variable {u : Table δ} {t₀ : MysqlTable}

theorem not_deleted (hc : Checked t₀ cfg) {n : String} (hn : n ∈ cfg.insertFields) : n ∉ cfg.deleted := by
  intro hd
  obtain ⟨f, hf, hfd, hfn⟩ := mem_deleted.mp hd
  have hlive := hc.mem_liveFields hf (hfn ▸ hn)
  have := (List.mem_filter.mp hlive).2
  rw [hfd] at this
  cases this

theorem deletePlan (h : Steady cfg u) (hc : Checked t₀ cfg) : cfg.deletePlan u.names = [] := by
  rw [MysqlTable.deletePlan, if_pos]
  apply List.eq_nil_iff_forall_not_mem.mpr
  intro n hn
  obtain ⟨hd, hn⟩ := mem_wantDelFields.mp hn
  exact not_deleted hc (h.known n hn) hd

theorem lookup_renames (h : Steady cfg u) {n : String} (hn : n ∈ u.names) : cfg.renames.lookup n = none := by
  by_contra hl
  obtain ⟨g, hg⟩ := Option.ne_none_iff_exists'.mp hl
  obtain ⟨hgf, hgr⟩ := mem_renames hg
  exact h.renames g hgf n hgr hn

theorem renamePlan (h : Steady cfg u) : cfg.renamePlan u.names = [] := by
  rw [MysqlTable.renamePlan, List.map_eq_nil_iff]
  apply List.eq_nil_iff_forall_not_mem.mpr
  intro x hx
  obtain ⟨hx, hn⟩ := List.mem_filter.mp hx
  have := (renames_sorted cfg).lookup_iff.mpr hx
  rw [h.lookup_renames (of_decide_eq_true hn)] at this
  cases this

theorem modifyPlan (h : Steady cfg u) : applyAll (cfg.modifyPlan u.names) u = some u := by
  apply applyAll_self
  intro a ha
  obtain ⟨x, hx, rfl⟩ := List.mem_map.mp ha
  obtain ⟨hx, hn⟩ := List.mem_filter.mp hx
  have hl := (OrdMap.ofList_spec _).1.lookup_iff.mpr hx
  refine modify_self (of_decide_eq_true hn) fun c hcm hcn => ?_
  have := h.modifies c hcm
  rw [modifyColumn, show cfg.modifies.lookup c.name = some x.2 from hcn ▸ hl, Option.elim_some] at this
  rw [← hcn]
  exact this

theorem addPlan (h : Steady cfg u) (hc : Checked t₀ cfg) : cfg.addPlan u.names = [] := by
  have hm := Weave.nodup_merge_iff hc.insertFields_nodup h.known
  unfold MysqlTable.addPlan MysqlTable.newTableFields
  rcases h.order with ho | ho
  · have hs : u.names.Sublist cfg.insertFields := ho ▸ List.Sublist.refl _
    rw [if_pos (hm.mpr hs), Weave.merge_of_sublist hs]
    exact addClauses_self fun n hn => ho ▸ hn
  · rw [if_neg fun hd => ho (hm.mp hd)]

theorem keyPlan (h : Steady cfg u) : cfg.keyPlan u.sortedKeyNames = [] := by
  rw [MysqlTable.keyPlan, List.append_eq_nil_iff, List.map_eq_nil_iff, List.map_eq_nil_iff]
  refine ⟨List.eq_nil_iff_forall_not_mem.mpr fun k hk => ?_, List.eq_nil_iff_forall_not_mem.mpr fun n hn => ?_⟩
  · obtain ⟨hk, hn⟩ := List.mem_filter.mp hk
    have hn : k.name ∉ u.sortedKeyNames := of_decide_eq_true hn
    exact hn (Table.mem_sortedKeyNames.mpr ((h.keyNames _).mpr (List.mem_map_of_mem hk)))
  · obtain ⟨hn, hno⟩ := List.mem_filter.mp hn
    have hno : n ∉ cfg.keys.map TableKey.name := of_decide_eq_true hno
    exact hno ((h.keyNames n).mp (Table.mem_sortedKeyNames.mp hn))

theorem migrates (h : Steady cfg u) (hc : Checked t₀ cfg) : Migrates cfg ⟨u, u, u, u, u, u⟩ where
  delete := by rw [h.deletePlan hc]; rfl
  rename := by rw [h.renamePlan]; rfl
  modify := h.modifyPlan
  known := h.known
  add := by rw [h.addPlan hc]; rfl
  keys := by rw [h.keyPlan]; rfl

theorem alters (h : Steady cfg u) (hc : Checked t₀ cfg) :
    (Stages.mk u u u u u u).alters cfg = cfg.modifyPlan u.names := by
  simp [Stages.alters, h.deletePlan hc, h.renamePlan, h.addPlan hc, h.keyPlan]

end Steady

/-! ## The copy -/

def Column.blank (c : Column δ) : Column δ := { c with data := none }

theorem Legal.blank {cs : List (Column δ)} {ks : List Key} (h : Legal cs ks) : Legal (cs.map Column.blank) ks := by
  have hn : (cs.map Column.blank).map Column.name = cs.map Column.name := by
    rw [List.map_map]
    rfl
  refine ⟨by simpa using h.nonempty, hn ▸ h.names, h.keyNames, hn ▸ h.keyColumns, h.primary, ?_, ?_, ?_⟩
  · exact List.forall_mem_map.mpr h.notNull
  · rw [List.filter_map, List.length_map]
    exact h.oneAutoIncr
  · exact List.forall_mem_map.mpr h.autoIncrKey

def Table.copy (u : Table δ) : Table δ := ⟨u.columns.map Column.blank, u.keys, u.legal.blank⟩

theorem Table.copy_names (u : Table δ) : u.copy.names = u.names := by
  simp only [Table.names, Table.copy, List.map_map]
  rfl

theorem Steady.copy {u : Table δ} (h : Steady cfg u) : Steady cfg u.copy := by
  refine ⟨u.copy_names ▸ h.known, u.copy_names ▸ h.renames, List.forall_mem_map.mpr fun c hc => ?_, u.copy_names ▸ h.order,
    h.keyNames⟩
  have hm := h.modifies c hc
  unfold modifyColumn at hm ⊢
  show (cfg.modifies.lookup c.name).elim _ _ = _
  cases hl : cfg.modifies.lookup c.name with
  | none => rfl
  | some f =>
    rw [hl, Option.elim_some] at hm
    exact congrArg Column.blank hm

section
variable {my : Mysql} {db : Conn δ} {t₀ : MysqlTable}

theorem Checked.withName (h : Checked t₀ cfg) (n : String) :
    Checked { t₀ with tableName := n } { cfg with tableName := n } :=
  ⟨by rw [h.result], h.fieldNames, h.field, h.keyNames, h.key, h.primary, h.autoIncr⟩

theorem dropTable_calm (hr : ∀ i, my.refuse i = false) {n : String} (hp : my.plain n = true) :
    (my.dropTable n db).2.tables = Function.update db.tables n none := by
  unfold Mysql.dropTable Mysql.execute Mysql.accepts
  rw [if_pos ⟨hr _, by simpa [Stmt.bare] using hp⟩]
  cases ht : db.tables n with
  | none =>
    simp only [Stmt.effect, ht, Option.map_none]
    rw [← ht, Function.update_eq_self]
  | some u => simp [Stmt.effect, ht]

theorem copyTable_calm (hr : ∀ i, my.refuse i = false) {new old : String} (hn : my.plain new = true)
    (ho : my.plain old = true) (hne : old ≠ new) {u : Table δ} (ht : db.tables old = some u) :
    (my.copyTable new old db).1 = 0 ∧ (my.copyTable new old db).2.tables new = some u.copy := by
  have hd : (my.dropTable new db).2.tables = Function.update db.tables new none := dropTable_calm hr hn
  have he : (Stmt.createLike new old).effect (my.dropTable new db).2.tables =
      some (Function.update (my.dropTable new db).2.tables new (some u.copy)) := by
    have hm : Table.make (u.columns.map fun c => { c with data := none }) u.keys = some u.copy := u.copy.make_self
    simp [Stmt.effect, hd, Function.update_of_ne hne, ht, hm]
  have ha : my.accepts (my.dropTable new db).2 (.createLike new old) =
      some (Function.update (my.dropTable new db).2.tables new (some u.copy)) := by
    unfold Mysql.accepts
    rw [if_pos ⟨hr _, by simp [Stmt.bare, hn, ho]⟩, he]
  simp [Mysql.copyTable, Mysql.execute, ha]

theorem Steady.changeTable (hr : ∀ i, my.refuse i = false) {n : String} (hn : my.plain n = true) {u : Table δ}
    (h : Steady cfg u) (hc : Checked t₀ cfg) (hp : ∀ x ∈ cfg.wantModifyFields u.names, my.plain x.1 = true)
    (ht : db.tables n = some u) : (my.changeTable { cfg with tableName := n } db).1 = 0 ∧
      (my.changeTable { cfg with tableName := n } db).2.tables n = some u := by
  have h' : Steady { cfg with tableName := n } u := ⟨h.known, h.renames, h.modifies, h.order, h.keyNames⟩
  have hc' := hc.withName n
  have hm' := h'.migrates hc'
  have htakes : my.Takes n ((Stages.mk u u u u u u).alters { cfg with tableName := n }) := by
    rw [h'.alters hc']
    intro a ha x hx
    obtain ⟨y, hy, rfl⟩ := List.mem_map.mp ha
    rcases List.mem_cons.mp hx with rfl | hx
    · exact hn
    · exact List.mem_singleton.mp hx ▸ hp y hy
  have hok : (my.changeTable { cfg with tableName := n } db).1 = 0 := changeTable_calm hr ht hm' htakes
  obtain ⟨s, hs, hms, hsent⟩ := changeTable_ok ht hok
  refine ⟨hok, ?_⟩
  rw [hsent.table, hms.unique hm' hs]

/-- A run on a steady table succeeds and changes nothing. -/
theorem Steady.createTable (hr : ∀ i, my.refuse i = false) (hn : my.plain cfg.tableName = true)
    (hcn : my.plain cfg.copyName = true) {u : Table δ} (h : Steady cfg u) (hc : Checked t₀ cfg)
    (hp : ∀ x ∈ cfg.wantModifyFields u.names, my.plain x.1 = true) (ht : db.tables cfg.tableName = some u) :
    (my.createTable cfg db).1.1 = 0 ∧ (my.createTable cfg db).2.tables cfg.tableName = some u := by
  have hne := cfg.copyName_ne.symm
  have hq : (my.getTableFields cfg db).1.1 = 0 := query_calm hr _
  obtain ⟨hnames, hsq⟩ := getTableFields_ok ht hq
  have hf : (my.getTableFields cfg db).1.2 ≠ [] := by
    rw [hnames]
    exact fun he => u.legal.nonempty (List.map_eq_nil_iff.mp he)
  obtain ⟨hcopy, hct⟩ := copyTable_calm hr hcn hn hne hsq.table
  obtain ⟨htrial, -⟩ := h.copy.changeTable hr hcn hc (u.copy_names ▸ hp) hct
  have h₀ := query_leaves my (fun m => m ≠ cfg.copyName) (fun s => ((s cfg.tableName).map Table.names).getD []) db
  have h₁ := (h₀.trans (dropTable_leaves my _ cfg.copyName)).trans (copyTable_leaves my cfg _)
  have h₂ := h₁.trans (changeTable_leaves my { cfg with tableName := cfg.copyName } _)
  have h₃ := (h₂.trans (dropTable_leaves my _ cfg.copyName)).tables _ hne
  obtain ⟨hmain, hres⟩ := h.changeTable hr hn hc hp (h₃.trans ht)
  unfold Mysql.createTable
  unfold MysqlTable.copyName at hcopy htrial hmain hres
  simp only [hq, hf, hcopy, htrial, ne_eq, not_true_eq_false, if_false]
  split
  · rename_i hno
    exact absurd hmain hno
  · exact ⟨rfl, hres⟩

end

/-! ## What the first run leaves -/

/-- The table `u` is what a successful run with the table `o`, or without one, has left. -/
inductive LeftBy (cfg : MysqlTable) : Option (Table δ) → Table δ → Prop
  | created {u : Table δ} : Created cfg u → LeftBy cfg none u
  | migrated {s : Stages δ} : Migrates cfg s → LeftBy cfg (some s.start) s.result

/-- The names of the columns after a success. -/
def MysqlTable.finalNames (cfg : MysqlTable) : Option (Table δ) → List String
  | none => cfg.insertFields
  | some t => if (cfg.kept t.names).Sublist cfg.insertFields then cfg.insertFields else cfg.kept t.names

/-- The definition that the first run leaves the field's column is the one that MODIFY gives it. -/
def MysqlTable.ModifiesAgain (cfg : MysqlTable) (f : TableField) : Option (Table δ) → Prop
  | none => f.getModifyType = f.getType ∧ f.getAutoIncr = false ∧ f.default = "" ∧
    (f.notNull = true → f.name ∈ primaryColumns cfg.wantKeys)
  | some t => (f.name ∉ cfg.kept t.names → f.getModifyType = f.getType) ∧
    (f.name ∈ cfg.lastPrimary t → "PRIMARY" ∈ cfg.keys.map TableKey.name)

section
variable {o : Option (Table δ)} {u : Table δ} {t₀ : MysqlTable}

theorem Migrates.mem_result_primary {s : Stages δ} (h : Migrates cfg s) (hc : Checked t₀ cfg) (n : String) :
    n ∈ primaryColumns s.result.keys ↔ n ∈ cfg.lastPrimary s.start ∧ "PRIMARY" ∈ cfg.keys.map TableKey.name := by
  have hname : ∀ k ∈ s.allKeys cfg, k.kind = .primary → k.name = "PRIMARY" := by
    intro k hk hp
    rcases List.mem_append.mp hk with hk | hk
    · exact (s.added.legal.primary k hk).mp hp
    · obtain ⟨c, -, rfl⟩ := List.mem_map.mp hk
      exact if_pos hp
  rw [← h.mem_allKeys_primary hc, mem_primaryColumns, mem_primaryColumns]
  have hkeys := (keyPlan_result h.keys).1
  refine ⟨fun ⟨k, hk, hp, hn⟩ => ⟨⟨k, ?_, hp, hn⟩, ?_⟩, fun ⟨⟨k, hk, hp, hn⟩, hP⟩ => ⟨k, ?_, hp, hn⟩⟩
  · rw [hkeys] at hk
    exact (List.mem_filter.mp hk).1
  · rw [← (s.result.legal.primary k hk).mp hp, ← keyPlan_keyNames (fun k hk => hc.key_name hk) h.keys]
    exact List.mem_map_of_mem hk
  · rw [hkeys]
    refine List.mem_filter.mpr ⟨hk, decide_eq_true fun hno => ?_⟩
    have := (List.mem_filter.mp hno).2
    rw [hname k hk hp] at this
    exact of_decide_eq_true this hP

theorem LeftBy.names (h : LeftBy cfg o u) (hc : Checked t₀ cfg) : u.names = cfg.finalNames o := by
  cases h with
  | created h => exact h.names
  | migrated h => exact h.result_names hc.insertFields_nodup

theorem LeftBy.known (h : LeftBy cfg o u) (hc : Checked t₀ cfg) : ∀ n ∈ u.names, n ∈ cfg.insertFields := by
  rw [h.names hc]
  cases h with
  | created h => exact fun n hn => hn
  | migrated h =>
    intro n hn
    unfold MysqlTable.finalNames at hn
    simp only at hn
    split at hn
    · exact hn
    · exact h.known n (h.modified_names ▸ hn)

theorem LeftBy.keyNames (h : LeftBy cfg o u) (hc : Checked t₀ cfg) (n : String) :
    n ∈ u.keyNames ↔ n ∈ cfg.keys.map TableKey.name := by
  cases h with
  | created h =>
    have he : cfg.keys.map (Key.name ∘ TableKey.key) = cfg.keys.map TableKey.name :=
      List.map_congr_left fun k hk => hc.key_name hk
    rw [Table.keyNames, h.keys, MysqlTable.wantKeys, List.map_map, he]
  | migrated h => exact keyPlan_keyNames (fun k hk => hc.key_name hk) h.keys n

theorem LeftBy.primary_name (h : LeftBy cfg o u) (hc : Checked t₀ cfg) {n : String} (hn : n ∈ cfg.lastPrimary u) :
    "PRIMARY" ∈ cfg.keys.map TableKey.name := by
  unfold MysqlTable.lastPrimary at hn
  split at hn
  · obtain ⟨k, hk, hp, -⟩ := mem_primaryColumns_key.mp hn
    have hkn : k.key.name = "PRIMARY" := if_pos hp
    exact hkn ▸ hc.key_name hk ▸ List.mem_map_of_mem hk
  · rename_i hne
    rw [← h.keyNames hc]
    by_contra hno
    rw [MysqlTable.keptPrimary, u.primary_iff.mpr hno] at hne
    exact hne rfl

theorem LeftBy.modified_column (h : LeftBy cfg o u) (hc : Checked t₀ cfg) {f : TableField} (hf : f ∈ cfg.liveFields)
    (hm : f.modifyType.isSome) (hn : f.name ∈ u.names) : ∃ c ∈ u.columns, c.name = f.name ∧
      (c.defn = { type := getFieldModifyTypeDesc f, notNull := f.name ∈ primaryColumns u.keys } ↔
        cfg.ModifiesAgain f o) := by
  cases h with
  | created h =>
    obtain ⟨c, hcm, hcn, hcd⟩ := h.column hf
    refine ⟨c, hcm, hcn, ?_⟩
    rw [hcd, h.keys]
    simp only [MysqlTable.columnDef, ColumnDef.mk.injEq, MysqlTable.ModifiesAgain]
    refine ⟨fun hd => ?_, fun hd => ?_⟩
    · obtain ⟨h₁, h₂, h₃, h₄⟩ := hd
      refine ⟨(fieldTypeDesc_inj f h₁).symm, h₃, h₄, fun hnn => ?_⟩
      rw [hnn, Bool.true_or] at h₂
      exact of_decide_eq_true h₂.symm
    · obtain ⟨h₁, h₂, h₃, h₄⟩ := hd
      refine ⟨?_, ?_, h₂, h₃⟩
      · rw [getFieldModifyTypeDesc, h₁]
        rfl
      · rw [h₂, Bool.false_or]
        cases hnn : f.notNull with
        | false => simp
        | true => simp [h₄ hnn]
  | @migrated s h =>
    have ht : cfg.Touches s.start.names f := by
      by_cases hk : f.name ∈ cfg.kept s.start.names
      · exact .inr (.inl ⟨hm, hk⟩)
      · refine .inr (.inr ⟨hk, ?_⟩)
        rw [h.result_names hc.insertFields_nodup] at hn
        by_contra hs
        rw [if_neg hs] at hn
        exact hk hn
    obtain ⟨c, hcm, hcn, hcd⟩ := h.touched_column hc hf ht
    refine ⟨c, hcm, hcn, ?_⟩
    rw [hcd]
    simp only [ColumnDef.mk.injEq, and_true, MysqlTable.ModifiesAgain]
    refine and_congr ?_ ?_
    · unfold MysqlTable.migratedType
      by_cases hk : f.name ∈ cfg.kept s.start.names
      · simp [hm, hk]
      · simp only [hk, and_false, if_false, not_false_eq_true, true_imp_iff]
        refine ⟨fun he => (fieldTypeDesc_inj f he).symm, fun he => ?_⟩
        rw [getFieldModifyTypeDesc, he]
        rfl
    · rw [decide_eq_decide, h.mem_result_primary hc]
      exact iff_self_and

end

/-! ## The second run -/

/-- The server, when it turns nothing down. -/
def Mysql.willing (my : Mysql) : Mysql := { my with refuse := fun _ => false }

/-- A second run succeeds and leaves the table, its columns with their definitions and data and its keys, as it is. -/
def RunsAgain (my : Mysql) (cfg : MysqlTable) (db : Conn δ) : Prop :=
  (my.willing.createTable cfg (my.createTable cfg db).2).1.1 = 0 ∧
    (my.willing.createTable cfg (my.createTable cfg db).2).2.tables cfg.tableName =
      (my.createTable cfg db).2.tables cfg.tableName

/-- What a second run needs: a name of the copy that can stand without quotes, no renaming from a column that is there
now, and no MODIFY that says something new. -/
structure Repeatable (my : Mysql) (cfg : MysqlTable) (o : Option (Table δ)) : Prop where
  copyName : my.plain cfg.copyName = true
  renames : ∀ f ∈ cfg.fields, ∀ x, f.renameFrom = some x → x ∉ cfg.finalNames o
  modifies : ∀ f ∈ cfg.liveFields, f.modifyType.isSome → f.name ∈ cfg.finalNames o →
    my.plain f.name = true ∧ cfg.ModifiesAgain f o

section
variable {my : Mysql} {db : Conn δ} {o : Option (Table δ)} {u : Table δ} {t₀ : MysqlTable}

theorem Repeatable.steady (hr : Repeatable my cfg o) (h : LeftBy cfg o u) (hc : Checked t₀ cfg) : Steady cfg u where
  known := h.known hc
  renames := by
    rw [h.names hc]
    exact hr.renames
  modifies := by
    intro c hcm
    unfold modifyColumn
    cases hl : cfg.modifies.lookup c.name with
    | none => rfl
    | some f =>
      obtain ⟨hf, hm, hn⟩ := hc.mem_modifies.mp hl
      have hcn : c.name ∈ u.names := List.mem_map_of_mem hcm
      have hlive := hc.mem_liveFields hf (hn ▸ h.known hc _ hcn)
      obtain ⟨d, hd, hdn, hdd⟩ := h.modified_column hc hlive hm (hn ▸ hcn)
      obtain rfl := List.inj_on_of_nodup_map u.legal.names hd hcm (hdn.trans hn)
      have := hdd.mpr (hr.modifies f hlive hm (h.names hc ▸ hn ▸ hcn)).2
      simp only [Option.elim_some, Column.redefine]
      rw [← hdn] at this
      rw [← this]
  order := by
    rw [h.names hc]
    cases o with
    | none => exact .inl rfl
    | some t =>
      unfold MysqlTable.finalNames
      simp only
      split
      · exact .inl rfl
      · rename_i hs
        exact .inr hs
  keyNames := h.keyNames hc

theorem Migrates.no_renames {s : Stages δ} (h : Migrates cfg s) (hc : Checked t₀ cfg) (hs : s.result = s.start)
    (hk : ∀ n ∈ s.start.names, n ∈ cfg.insertFields) {f : TableField} (hf : f ∈ cfg.fields) {x : String}
    (hx : f.renameFrom = some x) : x ∉ s.start.names := by
  intro hxn
  have hlen : (cfg.kept s.start.names).length = s.start.names.length := by
    rw [MysqlTable.kept, List.length_map, List.filter_eq_self.mpr]
    exact fun n hn => decide_eq_true (Steady.not_deleted hc (hk n hn))
  have hkept : cfg.kept s.start.names = s.start.names := by
    have hn := h.result_names hc.insertFields_nodup
    rw [hs] at hn
    split at hn
    · rename_i hsub
      rw [← hn] at hsub
      exact hsub.eq_of_length hlen
    · exact hn.symm
  have hmap : s.start.names.map (renamedTo cfg.renames) = s.start.names.map id := by
    rw [List.map_id]
    rw [MysqlTable.kept, List.filter_eq_self.mpr fun n hn => decide_eq_true (Steady.not_deleted hc (hk n hn))] at hkept
    exact hkept
  obtain ⟨g, hg⟩ := renames_isSome hf hx
  obtain ⟨hgf, hgr⟩ := mem_renames hg
  have he : renamedTo cfg.renames x = x := List.map_inj_left.mp hmap x hxn
  have hgn : g.name = x := by simpa [renamedTo, hg] using he
  have hgc := (hc.field g (by rwa [hc.result] at hgf)).fromOther
  exact hgc (hgr.trans (congrArg some hgn.symm))

theorem createTable_leftBy (h : (my.createTable cfg db).1.1 = 0) : my.plain cfg.tableName = true ∧
    ∃ u, LeftBy cfg (db.tables cfg.tableName) u ∧ (my.createTable cfg db).2.tables cfg.tableName = some u := by
  obtain ⟨-, hp, ⟨hn, u, hcr, hu⟩ | ⟨s, hs, hm, -, -, hu⟩⟩ := createTable_ok h
  · exact ⟨hp, u, hn ▸ .created hcr, hu⟩
  · exact ⟨hp, s.result, hs ▸ .migrated hm, hu⟩

theorem Migrates.repeatable {s : Stages δ} (h : Migrates cfg s) (hc : Checked t₀ cfg) (hleft : LeftBy cfg o s.start)
    (hs : s.result = s.start) (hpc : my.plain cfg.copyName = true) (htakes : my.Takes cfg.tableName (s.alters cfg)) :
    Repeatable my cfg o := by
  have hnames := hleft.names hc
  have hno : ∀ f ∈ cfg.fields, ∀ x, f.renameFrom = some x → x ∉ s.start.names :=
    fun f hf x hx => h.no_renames hc hs (hleft.known hc) hf hx
  have hkept : ∀ n ∈ s.start.names, n ∈ cfg.kept s.start.names := by
    intro n hn
    refine List.mem_map.mpr ⟨n, List.mem_filter.mpr ⟨hn, ?_⟩, ?_⟩
    · exact decide_eq_true (Steady.not_deleted hc (hleft.known hc n hn))
    · cases hl : cfg.renames.lookup n with
      | none => simp [renamedTo, hl]
      | some g => exact absurd hn (hno g (mem_renames hl).1 n (mem_renames hl).2)
  refine ⟨hpc, fun f hf x hx => hnames ▸ hno f hf x hx, fun f hf hfm hfn => ?_⟩
  rw [← hnames] at hfn
  have hplain : my.plain f.name = true := by
    refine htakes (.modify f.name (getFieldModifyTypeDesc f)) ?_ f.name (by simp [Stmt.bare, Alter.bare])
    have : Alter.modify f.name (getFieldModifyTypeDesc f) ∈ cfg.modifyPlan s.renamed.names := by
      rw [h.renamed_names]
      refine List.mem_map.mpr ⟨(f.name, f), List.mem_filter.mpr ⟨?_, decide_eq_true (hkept _ hfn)⟩, rfl⟩
      exact OrdMap.mem_of_lookup (hc.mem_modifies.mpr ⟨(List.mem_filter.mp hf).1, hfm, rfl⟩)
    simp [Stages.alters, this]
  refine ⟨hplain, ?_⟩
  -- the second run has modified the column, and it is what it was
  obtain ⟨c, hcm, hcn, hcd⟩ := hleft.modified_column hc hf hfm hfn
  apply hcd.mp
  obtain ⟨d, hd, hdn, hdd⟩ := h.touched_column hc hf (.inr (.inl ⟨hfm, hkept _ hfn⟩))
  rw [hs] at hd
  obtain rfl := List.inj_on_of_nodup_map s.start.legal.names hd hcm (hdn.trans hcn.symm)
  rw [hdd]
  have hprim := h.mem_result_primary hc f.name
  rw [hs] at hprim
  simp only [MysqlTable.migratedType, hfm, hkept _ hfn, and_self, if_true, ColumnDef.mk.injEq, and_true, true_and,
    decide_eq_decide]
  rw [hprim]
  exact ⟨fun hl => ⟨hl, hleft.primary_name hc hl⟩, fun hl => hl.1⟩

end

/-- `a` is to be renamed from `b`, and there is a field `b`. -/
def renameFromFieldTable : MysqlTable where
  tableName := "t"
  fields := [{ name := "a", type := some .int, renameFrom := some "b" }, { name := "b", type := some .int }]

theorem renameFromFieldTable_accepted : Accepted renameFromFieldTable := .of_checkTable (t := renameFromFieldTable) (by rfl)

end GlobalServer.Dbtool
