import GlobalServer.Dbtool.ConfSound

/-!
# What the check promises of CREATE TABLE

The check looks at all fields, and at the names of the keys as they stand in
the file; the statement has the fields that are not deleted, and the primary
key under another name.
-/

namespace GlobalServer.Dbtool

/-! ## The grammar of a key -/

/-- What can stand between backquotes. -/
def Ident (s : String) : Prop := s ≠ "" ∧ '`' ∉ s.toList

instance (s : String) : Decidable (Ident s) := inferInstanceAs (Decidable (_ ∧ _))

inductive ColumnList : List String → String → Prop
  | one {c : String} : Ident c → ColumnList [c] ("`" ++ c ++ "`")
  | more {c : String} {cs : List String} {s : String} : Ident c → ColumnList cs s →
    ColumnList (c :: cs) ("`" ++ c ++ "`" ++ ", " ++ s)

/-- The text defines the key. -/
inductive KeyClause : Key → String → Prop
  | primary {cs : List String} {s : String} : ColumnList cs s →
    KeyClause { name := "PRIMARY", kind := .primary, columns := cs } ("PRIMARY KEY(" ++ s ++ ")")
  | normal {n : String} {cs : List String} {s : String} : Ident n → ColumnList cs s →
    KeyClause { name := n, kind := .normal, columns := cs } ("KEY `" ++ n ++ "`(" ++ s ++ ")")
  | unique {n : String} {cs : List String} {s : String} : Ident n → ColumnList cs s →
    KeyClause { name := n, kind := .unique, columns := cs } ("UNIQUE KEY `" ++ n ++ "`(" ++ s ++ ")")

theorem ColumnList.idents {cs : List String} {s : String} (h : ColumnList cs s) : ∀ c ∈ cs, Ident c := by
  induction h with
  | one hc => simpa using hc
  | more hc _ ih =>
    intro c h
    rcases List.mem_cons.mp h with rfl | h
    · exact hc
    · exact ih c h

theorem KeyClause.idents {k : Key} {s : String} (h : KeyClause k s) :
    (∀ c ∈ k.columns, Ident c) ∧ (k.kind ≠ .primary → Ident k.name) := by
  cases h with
  | primary hs => exact ⟨hs.idents, fun h => absurd rfl h⟩
  | normal hn hs => exact ⟨hs.idents, fun _ => hn⟩
  | unique hn hs => exact ⟨hs.idents, fun _ => hn⟩

theorem keyColumns_list : ∀ {fs : List String}, fs ≠ [] → (∀ f ∈ fs, Ident f) → ColumnList fs (keyColumns fs)
  | [], h, _ => absurd rfl h
  | [f], _, hi => .one (hi f (by simp))
  | f :: g :: fs, _, hi => .more (hi f (by simp)) (keyColumns_list (by simp) fun c hc => hi c (List.mem_cons_of_mem f hc))

theorem getFieldKeyDesc_clause {k : TableKey} (hf : k.fields ≠ []) (hi : ∀ c ∈ k.fields, Ident c)
    (hn : k.getType ≠ .primary → Ident k.name) : KeyClause k.key (getFieldKeyDesc k) := by
  have hs := keyColumns_list hf hi
  unfold getFieldKeyDesc TableKey.key
  cases ht : k.getType with
  | primary => exact .primary hs
  | normal => exact .normal (hn (by simp [ht])) hs
  | unique => exact .unique (hn (by simp [ht])) hs

theorem getFieldKeyDesc_ne (k : TableKey) : getFieldKeyDesc k ≠ "" := by
  intro h
  have := congrArg String.toList h
  simp [getFieldKeyDesc] at this

/-! ## The check against the statement -/

def MysqlFieldType.integer : MysqlFieldType → Bool
  | tinyInt | int | uInt | bigInt => true
  | _ => false

/-- No reason for the server to turn CREATE TABLE down that is in the keys or in an AUTO_INCREMENT. -/
structure KeysSound (t : MysqlTable) : Prop where
  columns : ∀ k ∈ t.keys, ∀ c ∈ k.fields, c ∈ t.newColumns.map Prod.fst
  names : (t.keys.map TableKey.name).Nodup
  autoIncr : ∀ f ∈ t.liveFields, f.getAutoIncr = true → f.getType.integer = true ∧ ∃ k ∈ t.keys, f.name ∈ k.fields
  sql : ∀ k ∈ t.keys, getFieldKeyDesc k ≠ "" ∧ KeyClause k.key (getFieldKeyDesc k)

/-- What the check leaves to the author of the file. -/
structure KeysClean (t : MysqlTable) : Prop where
  live : ∀ f ∈ t.fields, f.isDelete = true → ∀ k ∈ t.keys, f.name ∉ k.fields
  primaryName : (∃ k ∈ t.keys, k.getType = .primary) → ∀ k ∈ t.keys, k.getType ≠ .primary → k.name ≠ "PRIMARY"
  noDouble : ∀ f ∈ t.fields, f.isDelete = false → f.getAutoIncr = true → f.getType ≠ .double
  idents : ∀ k ∈ t.keys, (∀ c ∈ k.fields, Ident c) ∧ (k.getType ≠ .primary → Ident k.name)

variable {t t' : MysqlTable}

theorem mem_liveFields {f : TableField} : f ∈ t.liveFields ↔ f ∈ t.fields ∧ f.isDelete = false := by
  simp [MysqlTable.liveFields]

theorem newColumns_names : t.newColumns.map Prod.fst = t.liveFields.map TableField.name := by
  simp [MysqlTable.newColumns]

namespace Checked

theorem liveFields_eq (h : Checked t t') : t'.liveFields = t.liveFields := by
  rw [h.result]
  rfl

theorem columns_iff (h : Checked t t') : (∀ k ∈ t'.keys, ∀ c ∈ k.fields, c ∈ t'.newColumns.map Prod.fst) ↔
    ∀ f ∈ t.fields, f.isDelete = true → ∀ k ∈ t.keys, f.name ∉ k.fields := by
  rw [newColumns_names, h.liveFields_eq, h.result]
  simp only [List.forall_mem_map, TableKey.renamed_fields]
  refine ⟨fun hk f hf hd k hkm hfk => ?_, fun hl k hkm c hc => ?_⟩
  · obtain ⟨g, hg, he⟩ := List.mem_map.mp (hk k hkm f.name hfk)
    obtain ⟨hg, hgd⟩ := mem_liveFields.mp hg
    obtain rfl := List.inj_on_of_nodup_map h.fieldNames hg hf he
    rw [hd] at hgd
    cases hgd
  · obtain ⟨f, hf, rfl⟩ := List.mem_map.mp ((h.key k hkm).known c hc)
    refine List.mem_map.mpr ⟨f, mem_liveFields.mpr ⟨hf, ?_⟩, rfl⟩
    by_contra hd
    exact hl f hf (by simpa using hd) k hkm hc

theorem primary_unique (h : Checked t t') {k l : TableKey} (hk : k ∈ t.keys) (hl : l ∈ t.keys)
    (hkp : k.getType = .primary) (hlp : l.getType = .primary) : k = l := by
  have hk' : k ∈ t.keys.filter fun k => k.getType = .primary := List.mem_filter.mpr ⟨hk, by simpa using hkp⟩
  have hl' : l ∈ t.keys.filter fun k => k.getType = .primary := List.mem_filter.mpr ⟨hl, by simpa using hlp⟩
  have hp := h.primary
  unfold primaries at hp
  match hm : t.keys.filter fun k => k.getType = .primary with
  | [] => rw [hm] at hk'; cases hk'
  | [x] =>
    rw [hm] at hk' hl'
    rw [List.mem_singleton.mp hk', List.mem_singleton.mp hl']
  | x :: y :: l => rw [hm] at hp; simp at hp

theorem names_iff (h : Checked t t') : (t'.keys.map TableKey.name).Nodup ↔
    ((∃ k ∈ t.keys, k.getType = .primary) → ∀ k ∈ t.keys, k.getType ≠ .primary → k.name ≠ "PRIMARY") := by
  rw [h.result, List.map_map]
  refine ⟨fun hd ⟨p, hp, hpp⟩ k hk hkp hn => ?_, fun hc => ?_⟩
  · have he : p.renamed.name = k.renamed.name := by
      rw [TableKey.renamed_name, if_pos hpp, TableKey.renamed_name, if_neg hkp, hn]
    obtain rfl := List.inj_on_of_nodup_map hd hp hk he
    exact hkp hpp
  · refine List.Nodup.map_on (fun k hk l hl he => ?_) (List.Nodup.of_map _ h.keyNames)
    simp only [Function.comp_apply, TableKey.renamed_name] at he
    by_cases hkp : k.getType = .primary
    · by_cases hlp : l.getType = .primary
      · exact h.primary_unique hk hl hkp hlp
      · rw [if_pos hkp, if_neg hlp] at he
        exact absurd he.symm (hc ⟨k, hk, hkp⟩ l hl hlp)
    · by_cases hlp : l.getType = .primary
      · rw [if_neg hkp, if_pos hlp] at he
        exact absurd he (hc ⟨l, hl, hlp⟩ k hk hkp)
      · rw [if_neg hkp, if_neg hlp] at he
        exact List.inj_on_of_nodup_map h.keyNames hk hl he

theorem autoIncr_iff (h : Checked t t') :
    (∀ f ∈ t'.liveFields, f.getAutoIncr = true → f.getType.integer = true ∧ ∃ k ∈ t'.keys, f.name ∈ k.fields) ↔
    ∀ f ∈ t.fields, f.isDelete = false → f.getAutoIncr = true → f.getType ≠ .double := by
  rw [h.liveFields_eq, h.result]
  refine ⟨fun hs f hf hd ha he => ?_, fun hs f hf ha => ?_⟩
  · have := (hs f (mem_liveFields.mpr ⟨hf, hd⟩) ha).1
    rw [he] at this
    cases this
  · obtain ⟨hf, hd⟩ := mem_liveFields.mp hf
    have hi : f.autoIncr.isSome := by
      unfold TableField.getAutoIncr at ha
      cases hfa : f.autoIncr with
      | none => rw [hfa] at ha; cases ha
      | some _ => rfl
    have ht := (h.field f hf).autoIncr hi
    have hne := hs f hf hd ha
    obtain ⟨k, hk, hfk⟩ := h.autoIncr f hf hi
    refine ⟨?_, k.renamed, List.mem_map.mpr ⟨k, hk, rfl⟩, by rwa [TableKey.renamed_fields]⟩
    cases hty : f.getType <;> simp_all [MysqlFieldType.takesAutoIncr, MysqlFieldType.integer]

theorem sql_iff (h : Checked t t') : (∀ k ∈ t'.keys, getFieldKeyDesc k ≠ "" ∧ KeyClause k.key (getFieldKeyDesc k)) ↔
    ∀ k ∈ t.keys, (∀ c ∈ k.fields, Ident c) ∧ (k.getType ≠ .primary → Ident k.name) := by
  rw [h.result]
  simp only [List.forall_mem_map]
  refine forall₂_congr fun k hk => ⟨fun hc => ?_, fun hi => ⟨getFieldKeyDesc_ne _, ?_⟩⟩
  · obtain ⟨hcs, hn⟩ := hc.2.idents
    simp only [TableKey.key, TableKey.renamed_fields, TableKey.renamed_getType] at hcs hn
    refine ⟨hcs, fun hp => ?_⟩
    have := hn hp
    rwa [if_neg hp, TableKey.renamed_name, if_neg hp] at this
  · apply getFieldKeyDesc_clause
    · rw [TableKey.renamed_fields]
      exact (h.key k hk).nonempty
    · rw [TableKey.renamed_fields]
      exact hi.1
    · rw [TableKey.renamed_getType]
      intro hp
      rw [TableKey.renamed_name, if_neg hp]
      exact hi.2 hp

theorem keysSound_iff (h : Checked t t') : KeysSound t' ↔ KeysClean t :=
  ⟨fun hs => ⟨h.columns_iff.mp hs.columns, h.names_iff.mp hs.names, h.autoIncr_iff.mp hs.autoIncr, h.sql_iff.mp hs.sql⟩,
    fun hc => ⟨h.columns_iff.mpr hc.live, h.names_iff.mpr hc.primaryName, h.autoIncr_iff.mpr hc.noDouble,
      h.sql_iff.mpr hc.idents⟩⟩

end Checked

theorem forall₂_all_iff {α β : Type} {R : α → β → Prop} {P : α → Prop} {Q : β → Prop} (hpq : ∀ x y, R x y → (Q y ↔ P x))
    {l : List α} {l' : List β} (h : List.Forall₂ R l l') : (∀ y ∈ l', Q y) ↔ ∀ x ∈ l, P x := by
  induction h with
  | nil => simp
  | cons hr _ ih => simp only [List.forall_mem_cons, hpq _ _ hr, ih]

/-- a table with a key on a deleted field -/
def deletedKeyTable : MysqlTable where
  tableName := "t"
  fields := [{ name := "a", type := some .int }, { name := "b", type := some .int, isDelete := true }]
  keys := [{ name := "k", type := some .normal, fields := ["b"] }]

def deletedKeyConf : MysqlSchemaConf := { mysqlSchemas := [{ schemaName := "s", tables := [deletedKeyTable] }] }

theorem deletedKeyConf_accepted : checkMysqlSyntax deletedKeyConf = .ok deletedKeyConf := by rfl

end GlobalServer.Dbtool
