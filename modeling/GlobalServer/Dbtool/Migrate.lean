import GlobalServer.Dbtool.Executor

/-!
# A migration without its connection

The steps of `ChangeTable` as changes of one table. A run of the tool that
reports success has taken the table through them, and has sent nothing else.
-/

namespace GlobalServer.Dbtool

variable {δ : Type}

/-! ## What is sent -/

def applyAll : List Alter → Table δ → Option (Table δ)
  | [], t => some t
  | a :: l, t => (Alter.apply t a).bind (applyAll l)

theorem applyAll_append : ∀ (l l' : List Alter) (t : Table δ),
    applyAll (l ++ l') t = (applyAll l t).bind (applyAll l')
  | [], _, _ => rfl
  | a :: l, l', t => by
    simp only [List.cons_append, applyAll, Option.bind_assoc]
    congr 1
    funext u
    exact applyAll_append l l' u

namespace MysqlTable

variable (cfg : MysqlTable)

def deletePlan (names : List String) : List Alter :=
  if cfg.wantDelFields names = [] then [] else [.dropColumns (cfg.wantDelFields names)]

def renamePlan (names : List String) : List Alter :=
  (cfg.wantRenameFields names).map fun x => .change x.1 x.2.name (getFieldTypeDesc x.2)

def modifyPlan (names : List String) : List Alter :=
  (cfg.wantModifyFields names).map fun x => .modify x.1 (getFieldModifyTypeDesc x.2)

/-- nothing for columns out of order -/
def addPlan (names : List String) : List Alter :=
  if (newTableFields names cfg.insertFields).Nodup then cfg.addClauses names none (newTableFields names cfg.insertFields)
  else []

def newKeys (names : List String) : List TableKey := cfg.keys.filter fun k => k.name ∉ names

def keyPlan (names : List String) : List Alter :=
  (cfg.newKeys names).map .addKey ++ (names.filter fun n => n ∉ cfg.keys.map TableKey.name).map .dropKey

end MysqlTable

/-- The names of the keys as `GetTableKeys` returns them. -/
def Table.sortedKeyNames (t : Table δ) : List String := (OrdMap.ofList (t.keyNames.map fun n => (n, ()))).map Prod.fst

theorem Table.mem_sortedKeyNames {t : Table δ} {n : String} : n ∈ t.sortedKeyNames ↔ n ∈ t.keyNames := by
  unfold sortedKeyNames
  rw [OrdMap.mem_keys, (OrdMap.ofList_spec _).2]
  refine ⟨fun ⟨l₁, l₂, he, _⟩ => ?_, fun hn => ?_⟩
  · have : (n, ()) ∈ t.keyNames.map fun n => (n, ()) := he ▸ by simp
    simpa using this
  · rw [Assign.last_iff_mem]
    · simpa using hn
    · rw [List.pairwise_map]
      exact t.legal.keyNames

/-- The table before each step and at the end. -/
structure Stages (δ : Type) where
  start : Table δ
  deleted : Table δ
  renamed : Table δ
  modified : Table δ
  added : Table δ
  result : Table δ

structure Migrates (cfg : MysqlTable) (s : Stages δ) : Prop where
  delete : applyAll (cfg.deletePlan s.start.names) s.start = some s.deleted
  rename : applyAll (cfg.renamePlan s.deleted.names) s.deleted = some s.renamed
  modify : applyAll (cfg.modifyPlan s.renamed.names) s.renamed = some s.modified
  known : ∀ n ∈ s.modified.names, n ∈ cfg.insertFields
  add : applyAll (cfg.addPlan s.modified.names) s.modified = some s.added
  keys : applyAll (cfg.keyPlan s.added.sortedKeyNames) s.added = some s.result

def Stages.alters (cfg : MysqlTable) (s : Stages δ) : List Alter :=
  cfg.deletePlan s.start.names ++ cfg.renamePlan s.deleted.names ++ cfg.modifyPlan s.renamed.names ++
    cfg.addPlan s.modified.names ++ cfg.keyPlan s.added.sortedKeyNames

/-! ## The connection against the table -/

/-- What the connection has done since `db` is to send the clauses `l` for table `n`, which has become `t`. -/
structure Sent (my : Mysql) (n : String) (l : List Alter) (t : Table δ) (db db' : Conn δ) : Prop where
  tables : db'.tables = Function.update db.tables n (some t)
  done : ∃ new, db'.done = db.done ++ new ∧ new.map Prod.fst = l.map (.alter n)
  plain : ∀ a ∈ l, ∀ x ∈ (Stmt.alter n a).bare, my.plain x = true

namespace Sent

variable {my : Mysql} {n : String} {l l' : List Alter} {t t' : Table δ} {db db' db'' : Conn δ}

theorem nil (h : db.tables n = some t) (ht : db'.tables = db.tables) (hd : db'.done = db.done) : Sent my n [] t db db' :=
  ⟨by rw [ht, ← h, Function.update_eq_self], ⟨[], by simp [hd], rfl⟩, fun _ ha => by cases ha⟩

theorem trans (h : Sent my n l t db db') (h' : Sent my n l' t' db' db'') : Sent my n (l ++ l') t' db db'' := by
  obtain ⟨new, hn, he⟩ := h.done
  obtain ⟨new', hn', he'⟩ := h'.done
  refine ⟨by rw [h'.tables, h.tables, Function.update_idem], ⟨new ++ new', ?_, ?_⟩, fun a ha => ?_⟩
  · rw [hn', hn, List.append_assoc]
  · rw [List.map_append, List.map_append, he, he']
  · rcases List.mem_append.mp ha with ha | ha
    · exact h.plain a ha
    · exact h'.plain a ha

theorem table (h : Sent my n l t db db') : db'.tables n = some t := by
  rw [h.tables, Function.update_self]

end Sent

section
variable {my : Mysql} {n : String} {t : Table δ} {db : Conn δ}

theorem execute_alter_ok {a : Alter} (ht : db.tables n = some t) (h : (my.execute (.alter n a) db).1 = 0) :
    ∃ t', Alter.apply t a = some t' ∧ Sent my n [a] t' db (my.execute (.alter n a) db).2 := by
  unfold Mysql.execute at h ⊢
  cases hs : my.accepts db (.alter n a) with
  | none => rw [hs] at h; simp at h
  | some s =>
    simp only
    unfold Mysql.accepts at hs
    split at hs
    · rename_i hp
      simp only [Stmt.effect, ht, Option.bind_some, Option.map_eq_some_iff] at hs
      obtain ⟨t', ha, rfl⟩ := hs
      exact ⟨t', ha, rfl, ⟨[_], rfl, rfl⟩, fun b hb => List.mem_singleton.mp hb ▸ hp.2⟩
    · cases hs

theorem executeEach_alter_ok : ∀ {l : List Alter} {t : Table δ} {db : Conn δ}, db.tables n = some t →
    (my.executeEach (l.map (.alter n)) db).1 = 0 →
    ∃ t', applyAll l t = some t' ∧ Sent my n l t' db (my.executeEach (l.map (.alter n)) db).2
  | [], t, db, ht, _ => ⟨t, rfl, .nil ht rfl rfl⟩
  | a :: l, t, db, ht, h => by
    simp only [List.map_cons, Mysql.executeEach] at h ⊢
    split at h
    · simp at h
    · rename_i he
      simp only [he, if_false]
      obtain ⟨t₁, ha, hs⟩ := execute_alter_ok ht (not_not.mp he)
      obtain ⟨t', ha', hs'⟩ := executeEach_alter_ok hs.table h
      exact ⟨t', by rw [applyAll, ha, Option.bind_some, ha'], hs.trans hs'⟩

theorem executeEach_map_ok {α : Type} (f : α → Alter) (xs : List α) {t : Table δ} {db : Conn δ}
    (ht : db.tables n = some t) (h : (my.executeEach (xs.map fun x => .alter n (f x)) db).1 = 0) :
    ∃ t', applyAll (xs.map f) t = some t' ∧
      Sent my n (xs.map f) t' db (my.executeEach (xs.map fun x => .alter n (f x)) db).2 := by
  have he : xs.map (fun x => Stmt.alter n (f x)) = (xs.map f).map (.alter n) := by simp
  rw [he] at h ⊢
  exact executeEach_alter_ok ht h

theorem executeEach_alter_calm (hr : ∀ i, my.refuse i = false) : ∀ {l : List Alter} {t t' : Table δ} {db : Conn δ},
    db.tables n = some t → (∀ a ∈ l, ∀ x ∈ (Stmt.alter n a).bare, my.plain x) → applyAll l t = some t' →
    (my.executeEach (l.map (.alter n)) db).1 = 0
  | [], _, _, _, _, _, _ => rfl
  | a :: l, t, t', db, ht, hp, h => by
    obtain ⟨t₁, ha, h⟩ := Option.bind_eq_some_iff.mp h
    have hok : (my.execute (.alter n a) db).1 = 0 := by
      have : my.accepts db (.alter n a) = some (Function.update db.tables n (some t₁)) := by
        rw [Mysql.accepts, if_pos ⟨hr _, hp a (by simp)⟩]
        simp [Stmt.effect, ht, ha]
      simp [Mysql.execute, this]
    obtain ⟨t₂, ha₂, hs⟩ := execute_alter_ok ht hok
    obtain rfl : t₁ = t₂ := Option.some.inj (ha.symm.trans ha₂)
    simp only [List.map_cons, Mysql.executeEach, hok, ne_eq, not_true_eq_false, if_false]
    exact executeEach_alter_calm hr hs.table (fun b hb => hp b (List.mem_cons_of_mem a hb)) h

end

/-! ## The steps -/

section
variable {my : Mysql} {cfg : MysqlTable} {t : Table δ} {db : Conn δ}

theorem getTableFields_ok (ht : db.tables cfg.tableName = some t) (h : (my.getTableFields cfg db).1.1 = 0) :
    (my.getTableFields cfg db).1.2 = t.names ∧ Sent my cfg.tableName [] t db (my.getTableFields cfg db).2 := by
  unfold Mysql.getTableFields Mysql.query at h ⊢
  split at h
  · cases h
  · rename_i hr
    rw [if_neg hr]
    exact ⟨by simp [ht], .nil ht rfl rfl⟩

theorem getTableKeys_ok (ht : db.tables cfg.tableName = some t) (h : (my.getTableKeys cfg db).1.1 = 0) :
    (my.getTableKeys cfg db).1.2 = t.sortedKeyNames ∧ Sent my cfg.tableName [] t db (my.getTableKeys cfg db).2 := by
  unfold Mysql.getTableKeys Mysql.query at h ⊢
  by_cases hr : my.refuse db.asked
  · simp [hr] at h
  · simp only [hr]
    exact ⟨by simp [ht, Table.sortedKeyNames], .nil ht rfl rfl⟩

theorem deleteTableColumn_ok (ht : db.tables cfg.tableName = some t) (h : (my.deleteTableColumn cfg db).1 = 0) :
    ∃ t', applyAll (cfg.deletePlan t.names) t = some t' ∧
      Sent my cfg.tableName (cfg.deletePlan t.names) t' db (my.deleteTableColumn cfg db).2 := by
  unfold Mysql.deleteTableColumn at h ⊢
  by_cases hq : (my.getTableFields cfg db).1.1 = 0
  · obtain ⟨hn, hs⟩ := getTableFields_ok ht hq
    simp only [hq, ne_eq, not_true_eq_false, if_false, hn, MysqlTable.deletePlan] at h ⊢
    split at h
    · rename_i hw
      simp only [hw, if_true]
      exact ⟨t, rfl, hs⟩
    · rename_i hw
      simp only [hw, if_false]
      obtain ⟨t', ha, hs'⟩ := executeEach_alter_ok (l := [.dropColumns _]) hs.table h
      exact ⟨t', ha, hs.trans hs'⟩
  · simp [hq] at h

theorem renameTableColumn_ok (ht : db.tables cfg.tableName = some t) (h : (my.renameTableColumn cfg db).1 = 0) :
    ∃ t', applyAll (cfg.renamePlan t.names) t = some t' ∧
      Sent my cfg.tableName (cfg.renamePlan t.names) t' db (my.renameTableColumn cfg db).2 := by
  unfold Mysql.renameTableColumn at h ⊢
  by_cases hq : (my.getTableFields cfg db).1.1 = 0
  · obtain ⟨hn, hs⟩ := getTableFields_ok ht hq
    simp only [hq, ne_eq, not_true_eq_false, if_false, hn] at h ⊢
    obtain ⟨t', ha, hs'⟩ := executeEach_map_ok _ _ hs.table h
    exact ⟨t', ha, hs.trans hs'⟩
  · simp [hq] at h

theorem modifyTableColumn_ok (ht : db.tables cfg.tableName = some t) (h : (my.modifyTableColumn cfg db).1 = 0) :
    ∃ t', applyAll (cfg.modifyPlan t.names) t = some t' ∧
      Sent my cfg.tableName (cfg.modifyPlan t.names) t' db (my.modifyTableColumn cfg db).2 := by
  unfold Mysql.modifyTableColumn at h ⊢
  by_cases hq : (my.getTableFields cfg db).1.1 = 0
  · obtain ⟨hn, hs⟩ := getTableFields_ok ht hq
    simp only [hq, ne_eq, not_true_eq_false, if_false, hn] at h ⊢
    obtain ⟨t', ha, hs'⟩ := executeEach_map_ok _ _ hs.table h
    exact ⟨t', ha, hs.trans hs'⟩
  · simp [hq] at h

theorem addTableColumn_ok (ht : db.tables cfg.tableName = some t) (h : (my.addTableColumn cfg db).1 = 0) :
    (∀ n ∈ t.names, n ∈ cfg.insertFields) ∧ ∃ t', applyAll (cfg.addPlan t.names) t = some t' ∧
      Sent my cfg.tableName (cfg.addPlan t.names) t' db (my.addTableColumn cfg db).2 := by
  unfold Mysql.addTableColumn at h ⊢
  by_cases hq : (my.getTableFields cfg db).1.1 = 0
  · obtain ⟨hn, hs⟩ := getTableFields_ok ht hq
    simp only [hq, ne_eq, not_true_eq_false, if_false, hn, MysqlTable.addPlan] at h ⊢
    split at h
    · simp at h
    · rename_i hk
      simp only [hk, if_false]
      refine ⟨fun n hn => by_contra fun hc => hk ⟨n, hn, hc⟩, ?_⟩
      split at h
      · rename_i hd
        simp only [hd, not_false_eq_true, if_true, if_false]
        exact ⟨t, rfl, hs⟩
      · rename_i hd
        rw [not_not] at hd
        simp only [hd, not_true_eq_false, if_true, if_false]
        obtain ⟨t', ha, hs'⟩ := executeEach_alter_ok hs.table h
        exact ⟨t', ha, hs.trans hs'⟩
  · simp [hq] at h

theorem changeKey_ok (ht : db.tables cfg.tableName = some t) (h : (my.changeKey cfg db).1 = 0) :
    ∃ t', applyAll (cfg.keyPlan t.sortedKeyNames) t = some t' ∧
      Sent my cfg.tableName (cfg.keyPlan t.sortedKeyNames) t' db (my.changeKey cfg db).2 := by
  unfold Mysql.changeKey at h ⊢
  by_cases hq : (my.getTableKeys cfg db).1.1 = 0
  · obtain ⟨hn, hs⟩ := getTableKeys_ok ht hq
    simp only [hq, ne_eq, not_true_eq_false, if_false, hn] at h ⊢
    split at h
    · simp at h
    · rename_i ha
      simp only [ha, if_false]
      obtain ⟨t₁, ha₁, hs₁⟩ := executeEach_map_ok .addKey _ hs.table (not_not.mp ha)
      obtain ⟨t', ha', hs'⟩ := executeEach_map_ok .dropKey _ hs₁.table h
      refine ⟨t', ?_, (hs.trans hs₁).trans hs'⟩
      rw [MysqlTable.keyPlan, applyAll_append, MysqlTable.newKeys, ha₁, Option.bind_some, ha']
  · simp [hq] at h

/-- A migration that reports success has taken the table through its stages. -/
theorem changeTable_ok (ht : db.tables cfg.tableName = some t) (h : (my.changeTable cfg db).1 = 0) :
    ∃ s, s.start = t ∧ Migrates cfg s ∧ Sent my cfg.tableName (s.alters cfg) s.result db (my.changeTable cfg db).2 := by
  unfold Mysql.changeTable at h ⊢
  simp only at h ⊢
  split at h
  · simp at h
  rename_i h₁
  split at h
  · simp at h
  rename_i h₂
  split at h
  · simp at h
  rename_i h₃
  split at h
  · simp at h
  rename_i h₄
  split at h
  · simp at h
  rename_i h₅
  simp only [h₁, h₂, h₃, h₄, h₅, if_false]
  rw [not_not] at h₁ h₂ h₃ h₄ h₅
  obtain ⟨t₁, ha₁, hs₁⟩ := deleteTableColumn_ok ht h₁
  obtain ⟨t₂, ha₂, hs₂⟩ := renameTableColumn_ok hs₁.table h₂
  obtain ⟨t₃, ha₃, hs₃⟩ := modifyTableColumn_ok hs₂.table h₃
  obtain ⟨hk, t₄, ha₄, hs₄⟩ := addTableColumn_ok hs₃.table h₄
  obtain ⟨t₅, ha₅, hs₅⟩ := changeKey_ok hs₄.table h₅
  exact ⟨⟨t, t₁, t₂, t₃, t₄, t₅⟩, rfl, ⟨ha₁, ha₂, ha₃, hk, ha₄, ha₅⟩,
    (((hs₁.trans hs₂).trans hs₃).trans hs₄).trans hs₅⟩

end

/-! ## A server that turns nothing down -/

section
variable {my : Mysql} {cfg : MysqlTable} {db : Conn δ} (hr : ∀ i, my.refuse i = false)

def Mysql.Takes (my : Mysql) (n : String) (l : List Alter) : Prop := ∀ a ∈ l, ∀ x ∈ (Stmt.alter n a).bare, my.plain x = true

include hr in
theorem query_calm {α : Type} (read : Tables δ → List α) : (my.query read db).1.1 = 0 := by
  simp [Mysql.query, hr]

include hr in
theorem executeEach_map_calm {α : Type} (f : α → Alter) (xs : List α) {n : String} {t t' : Table δ}
    (ht : db.tables n = some t) (hp : my.Takes n (xs.map f)) (h : applyAll (xs.map f) t = some t') :
    (my.executeEach (xs.map fun x => .alter n (f x)) db).1 = 0 := by
  have he : xs.map (fun x => Stmt.alter n (f x)) = (xs.map f).map (.alter n) := by simp
  rw [he]
  exact executeEach_alter_calm hr ht hp h

include hr in
theorem deleteTableColumn_calm {t t' : Table δ} (ht : db.tables cfg.tableName = some t)
    (hp : my.Takes cfg.tableName (cfg.deletePlan t.names)) (h : applyAll (cfg.deletePlan t.names) t = some t') :
    (my.deleteTableColumn cfg db).1 = 0 := by
  have hq : (my.getTableFields cfg db).1.1 = 0 := query_calm hr _
  obtain ⟨hn, hs⟩ := getTableFields_ok ht hq
  unfold Mysql.deleteTableColumn MysqlTable.deletePlan at *
  simp only [hq, ne_eq, not_true_eq_false, if_false, hn]
  split
  · rfl
  · rename_i hw
    simp only [hw, if_false] at h hp
    exact executeEach_alter_calm (l := [.dropColumns _]) hr hs.table hp h

include hr in
theorem renameTableColumn_calm {t t' : Table δ} (ht : db.tables cfg.tableName = some t)
    (hp : my.Takes cfg.tableName (cfg.renamePlan t.names)) (h : applyAll (cfg.renamePlan t.names) t = some t') :
    (my.renameTableColumn cfg db).1 = 0 := by
  have hq : (my.getTableFields cfg db).1.1 = 0 := query_calm hr _
  obtain ⟨hn, hs⟩ := getTableFields_ok ht hq
  unfold Mysql.renameTableColumn
  simp only [hq, ne_eq, not_true_eq_false, if_false, hn]
  exact executeEach_map_calm hr _ _ hs.table hp h

include hr in
theorem modifyTableColumn_calm {t t' : Table δ} (ht : db.tables cfg.tableName = some t)
    (hp : my.Takes cfg.tableName (cfg.modifyPlan t.names)) (h : applyAll (cfg.modifyPlan t.names) t = some t') :
    (my.modifyTableColumn cfg db).1 = 0 := by
  have hq : (my.getTableFields cfg db).1.1 = 0 := query_calm hr _
  obtain ⟨hn, hs⟩ := getTableFields_ok ht hq
  unfold Mysql.modifyTableColumn
  simp only [hq, ne_eq, not_true_eq_false, if_false, hn]
  exact executeEach_map_calm hr _ _ hs.table hp h

include hr in
theorem addTableColumn_calm {t t' : Table δ} (ht : db.tables cfg.tableName = some t) (hk : ∀ n ∈ t.names, n ∈ cfg.insertFields)
    (hp : my.Takes cfg.tableName (cfg.addPlan t.names)) (h : applyAll (cfg.addPlan t.names) t = some t') :
    (my.addTableColumn cfg db).1 = 0 := by
  have hq : (my.getTableFields cfg db).1.1 = 0 := query_calm hr _
  obtain ⟨hn, hs⟩ := getTableFields_ok ht hq
  have hno : ¬ ∃ f ∈ t.names, f ∉ cfg.insertFields := fun ⟨f, hf, hc⟩ => hc (hk f hf)
  unfold Mysql.addTableColumn MysqlTable.addPlan at *
  simp only [hq, ne_eq, not_true_eq_false, if_false, hn, hno]
  split
  · rfl
  · rename_i hd
    rw [not_not] at hd
    simp only [hd, if_true] at h hp
    exact executeEach_alter_calm hr hs.table hp h

include hr in
theorem changeKey_calm {t t' : Table δ} (ht : db.tables cfg.tableName = some t)
    (hp : my.Takes cfg.tableName (cfg.keyPlan t.sortedKeyNames)) (h : applyAll (cfg.keyPlan t.sortedKeyNames) t = some t') :
    (my.changeKey cfg db).1 = 0 := by
  have hq : (my.getTableKeys cfg db).1.1 = 0 := query_calm hr _
  obtain ⟨hn, hs⟩ := getTableKeys_ok ht hq
  rw [MysqlTable.keyPlan, applyAll_append] at h
  obtain ⟨t₁, h₁, h⟩ := Option.bind_eq_some_iff.mp h
  have hadd := executeEach_map_calm hr .addKey _ hs.table (fun a ha => hp a (List.mem_append_left _ ha)) h₁
  obtain ⟨t₂, h₂, hs₂⟩ := executeEach_map_ok .addKey _ hs.table hadd
  obtain rfl : t₁ = t₂ := Option.some.inj (h₁.symm.trans h₂)
  have hdrop := executeEach_map_calm hr .dropKey _ hs₂.table (fun a ha => hp a (List.mem_append_right _ ha)) h
  unfold Mysql.changeKey
  rw [MysqlTable.newKeys] at hadd hdrop
  simp only [hq, ne_eq, not_true_eq_false, if_false, hn, hadd, hdrop]

include hr in
theorem changeTable_calm {s : Stages δ} (ht : db.tables cfg.tableName = some s.start) (hm : Migrates cfg s)
    (hp : my.Takes cfg.tableName (s.alters cfg)) : (my.changeTable cfg db).1 = 0 := by
  have hp' : ∀ l, (∀ a ∈ l, a ∈ s.alters cfg) → my.Takes cfg.tableName l := fun l hl a ha => hp a (hl a ha)
  have h₁ := deleteTableColumn_calm hr ht (hp' _ fun a ha => by simp [Stages.alters, ha]) hm.delete
  obtain ⟨t₁, e₁, hs₁⟩ := deleteTableColumn_ok ht h₁
  obtain rfl : s.deleted = t₁ := Option.some.inj (hm.delete.symm.trans e₁)
  have h₂ := renameTableColumn_calm hr hs₁.table (hp' _ fun a ha => by simp [Stages.alters, ha]) hm.rename
  obtain ⟨t₂, e₂, hs₂⟩ := renameTableColumn_ok hs₁.table h₂
  obtain rfl : s.renamed = t₂ := Option.some.inj (hm.rename.symm.trans e₂)
  have h₃ := modifyTableColumn_calm hr hs₂.table (hp' _ fun a ha => by simp [Stages.alters, ha]) hm.modify
  obtain ⟨t₃, e₃, hs₃⟩ := modifyTableColumn_ok hs₂.table h₃
  obtain rfl : s.modified = t₃ := Option.some.inj (hm.modify.symm.trans e₃)
  have h₄ := addTableColumn_calm hr hs₃.table hm.known (hp' _ fun a ha => by simp [Stages.alters, ha]) hm.add
  obtain ⟨-, t₄, e₄, hs₄⟩ := addTableColumn_ok hs₃.table h₄
  obtain rfl : s.added = t₄ := Option.some.inj (hm.add.symm.trans e₄)
  have h₅ := changeKey_calm hr hs₄.table (hp' _ fun a ha => by simp [Stages.alters, ha]) hm.keys
  unfold Mysql.changeTable
  simp [h₁, h₂, h₃, h₄, h₅]

end

theorem Migrates.unique {cfg : MysqlTable} {s s' : Stages δ} (h : Migrates cfg s) (h' : Migrates cfg s')
    (hs : s.start = s'.start) : s.result = s'.result := by
  have e₁ : s.deleted = s'.deleted := Option.some.inj (h.delete.symm.trans (hs ▸ h'.delete))
  have e₂ : s.renamed = s'.renamed := Option.some.inj (h.rename.symm.trans (e₁ ▸ h'.rename))
  have e₃ : s.modified = s'.modified := Option.some.inj (h.modify.symm.trans (e₂ ▸ h'.modify))
  have e₄ : s.added = s'.added := Option.some.inj (h.add.symm.trans (e₃ ▸ h'.add))
  exact Option.some.inj (h.keys.symm.trans (e₄ ▸ h'.keys))

end GlobalServer.Dbtool
