import GlobalServer.Dbtool.Migrate

/-!
# The table after each step of a migration

What the columns and the keys of the table are after a step, as functions of
what they were before it. The names of the columns after the deletion and the
renaming do not depend on the order in which the columns are renamed.
-/

namespace GlobalServer.Dbtool

variable {δ : Type}

/-! ## Columns that are settled -/

@[simp] theorem Column.settle_name (ks : List Key) (c : Column δ) : (c.settle ks).name = c.name := rfl

@[simp] theorem Column.settle_data (ks : List Key) (c : Column δ) : (c.settle ks).data = c.data := rfl

@[simp] theorem Column.implied_settle (ks ks' : List Key) (c : Column δ) : (c.settle ks).implied ks' = c.implied ks' := rfl

theorem Column.implied_mono {ks ks' : List Key} (hs : ∀ n ∈ primaryColumns ks, n ∈ primaryColumns ks') {c : Column δ}
    (h : c.implied ks = true) : c.implied ks' = true := by
  simp only [implied, Bool.or_eq_true, decide_eq_true_eq] at h ⊢
  exact h.imp_right (hs _)

theorem Column.settle_eq_self {ks : List Key} {c : Column δ} (h : c.implied ks = true → c.defn.notNull = true) :
    c.settle ks = c := by
  obtain ⟨n, ⟨ty, nn, ai, df⟩, d⟩ := c
  cases hi : Column.implied ks (⟨n, ⟨ty, nn, ai, df⟩, d⟩ : Column δ) with
  | false => simp [settle, hi]
  | true =>
    have : nn = true := h hi
    simp [settle, this]

theorem Column.settle_settle {ks ks' : List Key} (hs : ∀ n ∈ primaryColumns ks, n ∈ primaryColumns ks') (c : Column δ) :
    (c.settle ks).settle ks' = c.settle ks' := by
  unfold settle
  rw [show ∀ b, implied ks' ({ c with defn.notNull := b } : Column δ) = implied ks' c from fun _ => rfl]
  cases hi : c.implied ks with
  | false => simp
  | true => simp [Column.implied_mono hs hi]

theorem Table.settle_columns (t : Table δ) {ks : List Key} (hs : ∀ n ∈ primaryColumns ks, n ∈ primaryColumns t.keys) :
    t.columns.map (Column.settle ks) = t.columns := by
  rw [List.map_congr_left (g := id)]
  · exact List.map_id _
  · exact fun c hc => Column.settle_eq_self fun hi => t.legal.notNull c hc (Column.implied_mono hs hi)

theorem mem_primaryColumns {ks : List Key} {n : String} :
    n ∈ primaryColumns ks ↔ ∃ k ∈ ks, k.kind = .primary ∧ n ∈ k.columns := by
  simp only [primaryColumns, List.mem_flatMap]
  refine exists_congr fun k => and_congr_right fun _ => ?_
  by_cases h : k.kind = .primary <;> simp [h]

theorem primaryColumns_append (ks ks' : List Key) : primaryColumns (ks ++ ks') = primaryColumns ks ++ primaryColumns ks' := by
  simp [primaryColumns]

/-! ## Keys -/

theorem applyAll_addKeys : ∀ {ks : List TableKey} {t t' : Table δ}, applyAll (ks.map .addKey) t = some t' →
    t'.keys = t.keys ++ ks.map TableKey.key ∧ t'.columns = t.columns.map (Column.settle (t.keys ++ ks.map TableKey.key))
  | [], t, t', h => by
    cases h
    simp [t.settle_columns fun _ h => h]
  | k :: ks, t, t', h => by
    obtain ⟨t₁, h₁, h⟩ := Option.bind_eq_some_iff.mp h
    obtain ⟨hc₁, hk₁⟩ := Table.make_eq_some h₁
    obtain ⟨hk, hc⟩ := applyAll_addKeys h
    have happ : t.keys ++ [k.key] ++ ks.map TableKey.key = t.keys ++ (k :: ks).map TableKey.key := by simp
    rw [hk₁, happ] at hk hc
    refine ⟨hk, ?_⟩
    rw [hc, hc₁, List.map_map]
    refine List.map_congr_left fun c _ => Column.settle_settle (fun n hn => ?_) c
    rw [← happ, primaryColumns_append]
    exact List.mem_append_left _ hn

theorem applyAll_dropKeys : ∀ {ns : List String} {t t' : Table δ}, applyAll (ns.map .dropKey) t = some t' →
    t'.keys = t.keys.filter (fun k => k.name ∉ ns) ∧ t'.columns = t.columns
  | [], t, t', h => by
    cases h
    simp
  | n :: ns, t, t', h => by
    obtain ⟨t₁, h₁, h⟩ := Option.bind_eq_some_iff.mp h
    simp only [Alter.apply] at h₁
    split at h₁
    · obtain ⟨hc₁, hk₁⟩ := Table.make_eq_some h₁
      obtain ⟨hk, hc⟩ := applyAll_dropKeys h
      refine ⟨?_, ?_⟩
      · rw [hk, hk₁, List.filter_filter]
        refine List.filter_congr fun k _ => ?_
        simp [Bool.and_comm]
      · rw [hc, hc₁, Table.settle_columns]
        intro m hm
        obtain ⟨k, hk, hp⟩ := mem_primaryColumns.mp hm
        exact mem_primaryColumns.mpr ⟨k, (List.mem_filter.mp hk).1, hp⟩
    · cases h₁

/-- The keys of the configuration as the server sees them. -/
def MysqlTable.wantKeys (cfg : MysqlTable) : List Key := cfg.keys.map TableKey.key

theorem keyPlan_result {cfg : MysqlTable} {t t' : Table δ} (h : applyAll (cfg.keyPlan t.sortedKeyNames) t = some t') :
    t'.keys = (t.keys ++ (cfg.newKeys t.sortedKeyNames).map TableKey.key).filter (fun k =>
      k.name ∉ t.sortedKeyNames.filter fun n => n ∉ cfg.keys.map TableKey.name) ∧
    t'.columns = t.columns.map (Column.settle (t.keys ++ (cfg.newKeys t.sortedKeyNames).map TableKey.key)) := by
  rw [MysqlTable.keyPlan, applyAll_append] at h
  obtain ⟨t₁, h₁, h⟩ := Option.bind_eq_some_iff.mp h
  obtain ⟨hk₁, hc₁⟩ := applyAll_addKeys h₁
  obtain ⟨hk, hc⟩ := applyAll_dropKeys h
  rw [hk₁] at hk
  rw [hc₁] at hc
  exact ⟨hk, hc⟩

/-! ## Deleted columns -/

/-- the names of the deleted fields -/
def MysqlTable.deleted (cfg : MysqlTable) : List String := (cfg.fields.filter fun f => f.isDelete).map TableField.name

theorem primaryColumns_without (ns : List String) : ∀ ks : List Key,
    primaryColumns (ks.filterMap (Key.without ns)) = (primaryColumns ks).filter (· ∉ ns)
  | [] => rfl
  | k :: ks => by
    have ih := primaryColumns_without ns ks
    have hcons : ∀ (k : Key) (ks : List Key), primaryColumns (k :: ks) =
        (if k.kind = .primary then k.columns else []) ++ primaryColumns ks := fun k ks => by simp [primaryColumns]
    rw [hcons, List.filter_append, List.filterMap_cons]
    by_cases he : k.columns.filter (· ∉ ns) = []
    · have hw : Key.without ns k = none := if_pos he
      rw [hw, ih]
      split
      · rw [he, List.nil_append]
      · simp
    · have hw : Key.without ns k = some { k with columns := k.columns.filter (· ∉ ns) } := if_neg he
      rw [hw]
      simp only
      rw [hcons, ih]
      split
      · rfl
      · simp

theorem Table.mem_names_of_key {t : Table δ} {k : Key} (hk : k ∈ t.keys) {n : String} (hn : n ∈ k.columns) : n ∈ t.names :=
  (t.legal.keyColumns k hk).2.2 n hn

theorem Table.mem_names_of_primary {t : Table δ} {n : String} (hn : n ∈ primaryColumns t.keys) : n ∈ t.names := by
  obtain ⟨k, hk, -, hn⟩ := mem_primaryColumns.mp hn
  exact Table.mem_names_of_key hk hn

theorem mem_wantDelFields {cfg : MysqlTable} {names : List String} {n : String} :
    n ∈ cfg.wantDelFields names ↔ n ∈ cfg.deleted ∧ n ∈ names := by
  simp only [MysqlTable.wantDelFields, MysqlTable.deleted, List.mem_filter, decide_eq_true_eq]

theorem without_wantDelFields {cfg : MysqlTable} {t : Table δ} {k : Key} (hk : k ∈ t.keys) :
    Key.without (cfg.wantDelFields t.names) k = Key.without cfg.deleted k := by
  have : k.columns.filter (· ∉ cfg.wantDelFields t.names) = k.columns.filter (· ∉ cfg.deleted) := by
    refine List.filter_congr fun n hn => ?_
    have := Table.mem_names_of_key hk hn
    simp [mem_wantDelFields, this]
  unfold Key.without
  rw [this]

theorem deletePlan_result {cfg : MysqlTable} {t t' : Table δ} (h : applyAll (cfg.deletePlan t.names) t = some t') :
    t'.columns = t.columns.filter (fun c => c.name ∉ cfg.deleted) ∧ t'.keys = t.keys.filterMap (Key.without cfg.deleted) := by
  have hkeys : t.keys.filterMap (Key.without (cfg.wantDelFields t.names)) = t.keys.filterMap (Key.without cfg.deleted) :=
    List.filterMap_congr fun k hk => without_wantDelFields hk
  have hcols : t.columns.filter (fun c => c.name ∉ cfg.wantDelFields t.names) =
      t.columns.filter (fun c => c.name ∉ cfg.deleted) := by
    refine List.filter_congr fun c hc => ?_
    have : c.name ∈ t.names := List.mem_map_of_mem hc
    simp [mem_wantDelFields, this]
  unfold MysqlTable.deletePlan at h
  split at h
  · rename_i hw
    cases h
    rw [hw] at hkeys hcols
    rw [← hcols, ← hkeys]
    refine ⟨by simp, ?_⟩
    rw [List.filterMap_congr (g := some), List.filterMap_some]
    intro k hk
    simp [Key.without, (t.legal.keyColumns k hk).1]
  · obtain ⟨t₁, h₁, h⟩ := Option.bind_eq_some_iff.mp h
    cases h
    simp only [Alter.apply] at h₁
    split at h₁
    · obtain ⟨hc, hk⟩ := Table.make_eq_some h₁
      rw [hk, ← hkeys, hc, ← hcols]
      refine ⟨?_, rfl⟩
      rw [List.map_congr_left (g := id)]
      · exact List.map_id _
      · intro c hcm
        refine Column.settle_eq_self fun hi => t.legal.notNull c (List.mem_filter.mp hcm).1 ?_
        refine Column.implied_mono (fun n hn => ?_) hi
        rw [primaryColumns_without] at hn
        exact (List.mem_filter.mp hn).1
    · cases h₁

/-! ## Renamed columns -/

def Key.mapColumns (f : String → String) (k : Key) : Key := { k with columns := k.columns.map f }

theorem primaryColumns_map (f : String → String) (ks : List Key) :
    primaryColumns (ks.map (Key.mapColumns f)) = (primaryColumns ks).map f := by
  simp only [primaryColumns, List.flatMap_map, List.map_flatMap]
  congr 1
  funext k
  by_cases h : k.kind = .primary <;> simp [Key.mapColumns, h]

/-- The column under its new definition; a new definition says neither NOT NULL nor AUTO_INCREMENT nor DEFAULT. -/
def Column.redefine (ks : List Key) (name type : String) (c : Column δ) : Column δ :=
  { name := name, defn := { type := type, notNull := c.name ∈ primaryColumns ks }, data := c.data }

section
variable {t t' : Table δ} {old new type : String}

theorem change_keys (h : Alter.apply t (.change old new type) = some t') :
    t'.keys = t.keys.map (Key.mapColumns (rename old new)) := by
  simp only [Alter.apply] at h
  split at h
  · exact (Table.make_eq_some h).2
  · cases h

theorem change_names (h : Alter.apply t (.change old new type) = some t') :
    old ∈ t.names ∧ t'.names = t.names.map (rename old new) := by
  simp only [Alter.apply] at h
  split at h
  · rename_i hold
    refine ⟨hold, ?_⟩
    unfold Table.names
    rw [(Table.make_eq_some h).1, List.map_map, List.map_map, List.map_map]
    refine List.map_congr_left fun c _ => ?_
    simp only [Function.comp_apply, Column.settle_name, rename]
    split <;> rfl
  · cases h

theorem change_new (h : Alter.apply t (.change old new type) = some t') (hn : new ∈ t.names) : new = old := by
  obtain ⟨hold, hnames⟩ := change_names h
  have hd := t'.legal.names
  rw [show t'.columns.map Column.name = _ from hnames] at hd
  refine List.inj_on_of_nodup_map hd hn hold ?_
  simp [rename]

theorem change_primary (h : Alter.apply t (.change old new type) = some t') {n : String} (hn : n ∈ t.names) :
    rename old new n ∈ primaryColumns t'.keys ↔ n ∈ primaryColumns t.keys := by
  rw [change_keys h, primaryColumns_map, List.mem_map]
  constructor
  · intro hm
    obtain ⟨m, hm, he⟩ := hm
    have hd := t'.legal.names
    rw [show t'.columns.map Column.name = _ from (change_names h).2] at hd
    exact List.inj_on_of_nodup_map hd (Table.mem_names_of_primary hm) hn he ▸ hm
  · exact fun hp => ⟨n, hp, rfl⟩

theorem change_columns (h : Alter.apply t (.change old new type) = some t') :
    t'.columns = t.columns.map (fun c => if c.name = old then c.redefine t.keys new type else c) := by
  have hk := change_keys h
  have hp := fun {n : String} => change_primary (n := n) h
  simp only [Alter.apply] at h
  split at h
  swap
  · cases h
  have hkeys : (t.keys.map fun k => { k with columns := k.columns.map (rename old new) }) = t'.keys := hk.symm
  rw [(Table.make_eq_some h).1, List.map_map, hkeys]
  refine List.map_congr_left fun c hcm => ?_
  have hpc := hp (List.mem_map_of_mem (f := Column.name) hcm)
  simp only [Function.comp_apply]
  by_cases hco : c.name = old
  · rw [if_pos hco, if_pos hco]
    rw [show rename old new c.name = new from by simp [rename, hco]] at hpc
    simp only [Column.settle, Column.implied, Column.redefine, Bool.false_or]
    congr 2
    exact decide_eq_decide.mpr hpc
  · rw [if_neg hco, if_neg hco]
    rw [show rename old new c.name = c.name from by simp [rename, hco]] at hpc
    refine Column.settle_eq_self fun hi => t.legal.notNull c hcm ?_
    simp only [Column.implied, Bool.or_eq_true, decide_eq_true_eq] at hi ⊢
    exact hi.imp_right hpc.mp

end

/-- the new name of the column -/
def renamedTo (l : FieldMap) (n : String) : String := (l.lookup n).elim n TableField.name

/-- The column after all renamings, in a table that had the keys `ks` before them. -/
def renameColumn (l : FieldMap) (ks : List Key) (c : Column δ) : Column δ :=
  (l.lookup c.name).elim c fun f => c.redefine ks f.name (getFieldTypeDesc f)

theorem renameColumn_name (l : FieldMap) (ks : List Key) (c : Column δ) : (renameColumn l ks c).name = renamedTo l c.name := by
  unfold renameColumn renamedTo
  cases l.lookup c.name <;> rfl

theorem renameColumn_data (l : FieldMap) (ks : List Key) (c : Column δ) : (renameColumn l ks c).data = c.data := by
  unfold renameColumn
  cases l.lookup c.name <;> rfl

section
variable {x : String} {f : TableField} {l : FieldMap}

theorem renamedTo_cons (hf : l.lookup f.name = none) (n : String) :
    renamedTo l (rename x f.name n) = renamedTo ((x, f) :: l) n := by
  unfold rename
  by_cases hnx : n = x
  · rw [if_pos hnx]
    simp [renamedTo, hf, hnx]
  · rw [if_neg hnx]
    simp [renamedTo, OrdMap.lookup_cons_ne hnx]

theorem renameColumn_cons (hf : l.lookup f.name = none) {ks ks' : List Key} {c : Column δ}
    (hp : c.name ≠ x → (c.name ∈ primaryColumns ks' ↔ c.name ∈ primaryColumns ks)) :
    renameColumn l ks' (if c.name = x then c.redefine ks f.name (getFieldTypeDesc f) else c) =
      renameColumn ((x, f) :: l) ks c := by
  by_cases hcx : c.name = x
  · have hl : ((x, f) :: l).lookup c.name = some f := by rw [hcx, List.lookup_cons_self]
    rw [if_pos hcx]
    simp [renameColumn, Column.redefine, hf, hl]
  · rw [if_neg hcx]
    unfold renameColumn
    rw [OrdMap.lookup_cons_ne hcx]
    cases l.lookup c.name with
    | none => rfl
    | some g => simp [Column.redefine, hp hcx]

end

/-- The clauses are carried out one after the other, but a column is not renamed to the name of one that is still to be
renamed, since its name is taken. -/
theorem applyAll_changes : ∀ {l : FieldMap} {t t' : Table δ}, (l.map Prod.fst).Nodup → (∀ x ∈ l, x.1 ∈ t.names) →
    applyAll (l.map fun x => .change x.1 x.2.name (getFieldTypeDesc x.2)) t = some t' →
    t'.columns = t.columns.map (renameColumn l t.keys) ∧ t'.keys = t.keys.map (Key.mapColumns (renamedTo l))
  | [], t, t', _, _, h => by
    cases h
    refine ⟨(List.map_id _).symm, ?_⟩
    rw [List.map_congr_left (g := id)]
    · exact (List.map_id _).symm
    · intro k _
      have : renamedTo [] = id := rfl
      simp [Key.mapColumns, this]
  | (x, f) :: l, t, t', hd, hin, h => by
    obtain ⟨t₁, h₁, h⟩ := Option.bind_eq_some_iff.mp h
    have hc₁ := change_columns h₁
    have hk₁ := change_keys h₁
    obtain ⟨hx, hd⟩ := List.nodup_cons.mp hd
    have hx : x ∉ l.map Prod.fst := hx
    have hnew : f.name ∈ t.names → f.name = x := change_new h₁
    have hin₁ : ∀ y ∈ l, y.1 ∈ t₁.names := by
      intro y hy
      have hyx : y.1 ≠ x := fun he => hx (he ▸ List.mem_map_of_mem hy)
      rw [(change_names h₁).2]
      exact List.mem_map.mpr ⟨y.1, hin y (List.mem_cons_of_mem _ hy), by simp [rename, hyx]⟩
    have hout : l.lookup f.name = none := by
      by_contra hl
      obtain ⟨g, hg⟩ := Option.ne_none_iff_exists'.mp hl
      have hg := List.mem_map_of_mem (f := Prod.fst) (OrdMap.mem_of_lookup hg)
      obtain ⟨y, hy, he⟩ := List.mem_map.mp hg
      have he : y.1 = f.name := he
      exact hx (hnew (he ▸ hin y (List.mem_cons_of_mem _ hy)) ▸ hg)
    obtain ⟨hc, hk⟩ := applyAll_changes hd hin₁ h
    refine ⟨?_, ?_⟩
    · rw [hc, hc₁, List.map_map]
      refine List.map_congr_left fun c hcm => renameColumn_cons hout fun hcx => ?_
      have hpc := change_primary h₁ (List.mem_map_of_mem (f := Column.name) hcm)
      rwa [show rename x f.name c.name = c.name from by simp [rename, hcx]] at hpc
    · rw [hk, hk₁, List.map_map]
      refine List.map_congr_left fun k _ => ?_
      simp only [Function.comp_apply, Key.mapColumns, List.map_map]
      congr 1
      exact List.map_congr_left fun n _ => renamedTo_cons hout n

theorem renames_sorted (cfg : MysqlTable) : OrdMap.Sorted cfg.renames := (OrdMap.ofList_spec _).1

theorem renamePlan_result {cfg : MysqlTable} {t t' : Table δ} (h : applyAll (cfg.renamePlan t.names) t = some t') :
    t'.columns = t.columns.map (renameColumn cfg.renames t.keys) ∧
      t'.keys = t.keys.map (Key.mapColumns (renamedTo cfg.renames)) := by
  have hd : ((cfg.wantRenameFields t.names).map Prod.fst).Nodup :=
    (OrdMap.nodup_keys (renames_sorted cfg)).sublist (List.filter_sublist.map _)
  obtain ⟨hc, hk⟩ := applyAll_changes hd (fun x hx => of_decide_eq_true (List.mem_filter.mp hx).2) h
  have hl : ∀ n ∈ t.names, (cfg.wantRenameFields t.names).lookup n = cfg.renames.lookup n :=
    fun n hn => OrdMap.lookup_filter (P := (· ∈ t.names)) hn cfg.renames
  refine ⟨?_, ?_⟩
  · rw [hc]
    refine List.map_congr_left fun c hcm => ?_
    unfold renameColumn
    rw [hl _ (List.mem_map_of_mem hcm)]
  · rw [hk]
    refine List.map_congr_left fun k hkm => ?_
    unfold Key.mapColumns
    congr 1
    refine List.map_congr_left fun n hn => ?_
    unfold renamedTo
    rw [hl n (Table.mem_names_of_key hkm hn)]

/-! ## Modified columns -/

def MysqlTable.modifies (cfg : MysqlTable) : FieldMap :=
  OrdMap.ofList ((cfg.fields.filter fun f => f.modifyType.isSome).map fun f => (f.name, f))

def modifyColumn (l : FieldMap) (ks : List Key) (c : Column δ) : Column δ :=
  (l.lookup c.name).elim c fun f => c.redefine ks c.name (getFieldModifyTypeDesc f)

theorem modifyColumn_name (l : FieldMap) (ks : List Key) (c : Column δ) : (modifyColumn l ks c).name = c.name := by
  unfold modifyColumn
  cases l.lookup c.name <;> rfl

theorem modifyColumn_data (l : FieldMap) (ks : List Key) (c : Column δ) : (modifyColumn l ks c).data = c.data := by
  unfold modifyColumn
  cases l.lookup c.name <;> rfl

theorem modify_result {t t' : Table δ} {n type : String} (h : Alter.apply t (.modify n type) = some t') :
    t'.columns = t.columns.map (fun c => if c.name = n then c.redefine t.keys n type else c) ∧ t'.keys = t.keys := by
  simp only [Alter.apply] at h
  split at h
  swap
  · cases h
  obtain ⟨hc, hk⟩ := Table.make_eq_some h
  refine ⟨?_, hk⟩
  rw [hc, List.map_map]
  refine List.map_congr_left fun c hcm => ?_
  simp only [Function.comp_apply]
  by_cases hn : c.name = n
  · rw [if_pos hn, if_pos hn]
    simp [Column.settle, Column.implied, Column.redefine, hn]
  · rw [if_neg hn, if_neg hn]
    exact Column.settle_eq_self (t.legal.notNull c hcm)

theorem applyAll_modifies : ∀ {l : FieldMap} {t t' : Table δ}, (l.map Prod.fst).Nodup →
    applyAll (l.map fun x => .modify x.1 (getFieldModifyTypeDesc x.2)) t = some t' →
    t'.columns = t.columns.map (modifyColumn l t.keys) ∧ t'.keys = t.keys
  | [], t, t', _, h => by
    cases h
    exact ⟨(List.map_id _).symm, rfl⟩
  | (x, f) :: l, t, t', hd, h => by
    obtain ⟨t₁, h₁, h⟩ := Option.bind_eq_some_iff.mp h
    obtain ⟨hc₁, hk₁⟩ := modify_result h₁
    obtain ⟨hx, hd⟩ := List.nodup_cons.mp hd
    have hout : l.lookup x = none := by
      by_contra hl
      obtain ⟨g, hg⟩ := Option.ne_none_iff_exists'.mp hl
      have : x ∈ l.map Prod.fst := List.mem_map_of_mem (f := Prod.fst) (OrdMap.mem_of_lookup hg)
      exact hx this
    obtain ⟨hc, hk⟩ := applyAll_modifies hd h
    refine ⟨?_, hk.trans hk₁⟩
    rw [hc, hc₁, hk₁, List.map_map]
    refine List.map_congr_left fun c _ => ?_
    simp only [Function.comp_apply]
    by_cases hcx : c.name = x
    · rw [if_pos hcx]
      simp [modifyColumn, Column.redefine, hout, hcx]
    · rw [if_neg hcx]
      unfold modifyColumn
      rw [OrdMap.lookup_cons_ne hcx]

theorem modifyPlan_result {cfg : MysqlTable} {t t' : Table δ} (h : applyAll (cfg.modifyPlan t.names) t = some t') :
    t'.columns = t.columns.map (modifyColumn cfg.modifies t.keys) ∧ t'.keys = t.keys := by
  have hd : ((cfg.wantModifyFields t.names).map Prod.fst).Nodup :=
    (OrdMap.nodup_keys (OrdMap.ofList_spec _).1).sublist (List.filter_sublist.map _)
  obtain ⟨hc, hk⟩ := applyAll_modifies hd h
  refine ⟨?_, hk⟩
  rw [hc]
  refine List.map_congr_left fun c hcm => ?_
  unfold modifyColumn
  rw [show (cfg.wantModifyFields t.names).lookup c.name = cfg.modifies.lookup c.name from
    OrdMap.lookup_filter (P := (· ∈ t.names)) (List.mem_map_of_mem hcm) cfg.modifies]

/-! ## Added columns -/

theorem insertAfter_spec {c : Column δ} {cs cs' : List (Column δ)} {before rest : List String}
    (hn : cs.map Column.name = before ++ rest) (hd : (cs.map Column.name).Nodup)
    (h : insertAfter c before.getLast? cs = some cs') :
    cs'.map Column.name = before ++ c.name :: rest ∧ ∀ d, d ∈ cs' ↔ d = c ∨ d ∈ cs := by
  rcases List.eq_nil_or_concat before with rfl | ⟨before, a, rfl⟩
  · simp only [List.getLast?_nil, insertAfter, Option.some.injEq] at h
    subst h
    exact ⟨by simpa using hn, fun d => List.mem_cons⟩
  · rw [List.concat_eq_append] at hn h ⊢
    rw [List.append_assoc] at hn
    obtain ⟨cs₁, cs₂, rfl, h₁, h₂⟩ := List.map_eq_append_iff.mp hn
    obtain ⟨d, cs₂, rfl, hda, rfl⟩ := List.map_eq_cons_iff.mp h₂
    -- the column named `a` occurs once
    have hne : ∀ e ∈ cs₁ ++ cs₂, e.name ≠ a := by
      rw [List.map_append, List.map_cons, List.nodup_middle, List.nodup_cons, ← List.map_append] at hd
      exact fun e he hea => hd.1 (hda ▸ hea ▸ List.mem_map_of_mem he)
    have hflat : ∀ l : List (Column δ), (∀ e ∈ l, e.name ≠ a) → l.flatMap (fun e => if e.name = a then [e, c] else [e]) = l := by
      intro l hl
      induction l with
      | nil => rfl
      | cons e l ih =>
        rw [List.flatMap_cons, if_neg (hl e (by simp)), ih fun e he => hl e (List.mem_cons_of_mem _ he)]
        rfl
    simp only [List.getLast?_append, List.getLast?_singleton, Option.some_or, insertAfter, Option.ite_none_right_eq_some,
      Option.some.injEq] at h
    obtain ⟨-, rfl⟩ := h
    rw [List.flatMap_append, List.flatMap_cons, if_pos hda, hflat cs₁ fun e he => hne e (List.mem_append_left _ he),
      hflat cs₂ fun e he => hne e (List.mem_append_right _ he)]
    refine ⟨by simp [h₁, hda], fun e => ?_⟩
    simp only [List.mem_append, List.mem_cons, List.not_mem_nil, or_false]
    tauto

theorem addColumn_result {t t' : Table δ} {n type : String} {before rest : List String} (hn : t.names = before ++ rest)
    (h : Alter.apply t (.addColumn n type before.getLast?) = some t') :
    t'.names = before ++ n :: rest ∧ t'.keys = t.keys ∧
      ∀ d, d ∈ t'.columns ↔ d = { name := n, defn := { type }, data := none } ∨ d ∈ t.columns := by
  obtain ⟨cs, hcs, h⟩ := Option.bind_eq_some_iff.mp h
  obtain ⟨hc, hk⟩ := Table.make_eq_some h
  obtain ⟨hnames, hmem⟩ := insertAfter_spec hn t.legal.names hcs
  have hnew : n ∉ t.names := by
    have hd := t'.legal.names
    rw [hc, List.map_map, show Column.name ∘ Column.settle (δ := δ) t.keys = Column.name from rfl, hnames,
      List.nodup_middle, List.nodup_cons] at hd
    rw [hn]
    exact hd.1
  have hset : cs.map (Column.settle t.keys) = cs := by
    rw [List.map_congr_left (g := id)]
    · exact List.map_id _
    · intro d hd
      rcases (hmem d).mp hd with rfl | hd
      · refine Column.settle_eq_self fun hi => ?_
        simp only [Column.implied, Bool.false_or, decide_eq_true_eq] at hi
        exact absurd (Table.mem_names_of_primary hi) hnew
      · exact Column.settle_eq_self (t.legal.notNull d hd)
  rw [hset] at hc
  refine ⟨?_, hk, fun d => ?_⟩
  · rw [Table.names, hc]
    exact hnames
  · rw [hc]
    exact hmem d

/-- The column that AddTableColumn adds under this name. -/
def MysqlTable.addedColumn (cfg : MysqlTable) (n : String) : Column δ :=
  { name := n, defn := { type := (cfg.insertFieldMap.lookup n).elim "" getFieldTypeDesc }, data := none }

/-- The columns before the place of the loop are the new ones, those behind it the old ones that are left. -/
theorem applyAll_addClauses {cfg : MysqlTable} {old : List String} : ∀ {l before rest : List String} {t t' : Table δ},
    t.names = before ++ rest → rest.Sublist l → (before ++ l).Nodup → (∀ n ∈ l, n ∈ old ↔ n ∈ rest) →
    applyAll (cfg.addClauses old before.getLast? l) t = some t' →
    t'.names = before ++ l ∧ t'.keys = t.keys ∧
      ∀ d, d ∈ t'.columns ↔ d ∈ t.columns ∨ ∃ n ∈ l, n ∉ old ∧ d = cfg.addedColumn n
  | [], before, rest, t, t', hn, hs, _, _, h => by
    cases h
    rw [List.sublist_nil.mp hs] at hn
    simp [hn]
  | n :: l, before, rest, t, t', hn, hs, hd, ho, h => by
    have hlast : (before ++ [n]).getLast? = some n := by simp
    have hd' : (before ++ [n] ++ l).Nodup := by simpa using hd
    have hnl : n ∉ l := by
      have := (List.nodup_append.mp hd).2.1
      exact (List.nodup_cons.mp this).1
    rw [MysqlTable.addClauses] at h
    by_cases hold : n ∈ old
    · have hrest : n ∈ rest := (ho n (by simp)).mp hold
      obtain ⟨rest, rfl⟩ : ∃ r, rest = n :: r := by
        cases hs with
        | cons _ hs => exact absurd (hs.subset hrest) hnl
        | cons_cons _ hs => exact ⟨_, rfl⟩
      have hs' : rest.Sublist l := List.cons_sublist_cons.mp hs
      rw [if_pos hold, List.nil_append, ← hlast] at h
      have hn' : t.names = (before ++ [n]) ++ rest := by rw [hn, List.append_assoc, List.singleton_append]
      obtain ⟨h₁, h₂, h₃⟩ := applyAll_addClauses hn' hs' hd' (fun m hm => by
        rw [ho m (List.mem_cons_of_mem _ hm), List.mem_cons, or_iff_right]
        exact fun he => hnl (he ▸ hm)) h
      refine ⟨by rw [h₁]; simp, h₂, fun d => ?_⟩
      rw [h₃]
      simp [hold]
    · have hrest : n ∉ rest := fun hr => hold ((ho n (by simp)).mpr hr)
      have hs' : rest.Sublist l := by
        cases hs with
        | cons _ hs => exact hs
        | cons_cons _ hs => exact absurd (by simp) hrest
      rw [if_neg hold, List.singleton_append] at h
      obtain ⟨t₁, h₁, h⟩ := Option.bind_eq_some_iff.mp h
      obtain ⟨hn₁, hk₁, hm₁⟩ := addColumn_result hn h₁
      rw [← hlast] at h
      have hn' : t₁.names = (before ++ [n]) ++ rest := by rw [hn₁, List.append_assoc, List.singleton_append]
      obtain ⟨h₂, h₃, h₄⟩ := applyAll_addClauses hn' hs' hd' (fun m hm => ho m (List.mem_cons_of_mem _ hm)) h
      refine ⟨by rw [h₂]; simp, h₃.trans hk₁, fun d => ?_⟩
      rw [h₄, hm₁]
      simp only [List.exists_mem_cons_iff, hold, not_false_eq_true, true_and, MysqlTable.addedColumn]
      tauto

theorem addPlan_result {cfg : MysqlTable} (hd : cfg.insertFields.Nodup) {t t' : Table δ}
    (hk : ∀ n ∈ t.names, n ∈ cfg.insertFields) (h : applyAll (cfg.addPlan t.names) t = some t') :
    (¬ t.names.Sublist cfg.insertFields ∧ t' = t) ∨ (t.names.Sublist cfg.insertFields ∧ t'.names = cfg.insertFields ∧
      t'.keys = t.keys ∧
      ∀ d, d ∈ t'.columns ↔ d ∈ t.columns ∨ ∃ n ∈ cfg.insertFields, n ∉ t.names ∧ d = cfg.addedColumn n) := by
  have hmerge := Weave.nodup_merge_iff hd hk
  unfold MysqlTable.addPlan at h
  split at h
  · rename_i hm
    have hs := hmerge.mp hm
    have he : MysqlTable.newTableFields t.names cfg.insertFields = cfg.insertFields := Weave.merge_of_sublist hs
    rw [he] at h
    have hn : t.names = [] ++ t.names := rfl
    exact .inr ⟨hs, applyAll_addClauses hn hs hd (fun _ _ => Iff.rfl) h⟩
  · rename_i hm
    cases h
    exact .inl ⟨fun hs => hm (hmerge.mpr hs), rfl⟩

end GlobalServer.Dbtool
