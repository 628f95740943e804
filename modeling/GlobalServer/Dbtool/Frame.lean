import GlobalServer.Dbtool.ConfSound

/-!
# What a migration leaves alone

Every statement changes the table it names and no other. The trial run works
on a table of its own, under a name made from that of the table; the tool
drops what has that name before it starts, and does not set the name in the
configuration back when the trial fails.
-/

namespace GlobalServer.Dbtool

variable {δ : Type}

def Stmt.target : Stmt → String
  | createTable name _ _ => name
  | createLike new _ => new
  | dropTable name => name
  | alter table _ => table

theorem Stmt.effect_of_ne {s s' : Tables δ} {st : Stmt} (h : st.effect s = some s') {m : String} (hm : m ≠ st.target) :
    s' m = s m := by
  cases st with
  | createTable name columns keys =>
    simp only [effect, Option.ite_none_right_eq_some, Option.map_eq_some_iff] at h
    obtain ⟨-, t, -, rfl⟩ := h
    exact Function.update_of_ne hm _ _
  | createLike new old =>
    simp only [effect, Option.ite_none_right_eq_some, Option.bind_eq_some_iff, Option.map_eq_some_iff] at h
    obtain ⟨-, t, -, t', -, rfl⟩ := h
    exact Function.update_of_ne hm _ _
  | dropTable name =>
    simp only [effect, Option.map_eq_some_iff] at h
    obtain ⟨t, -, rfl⟩ := h
    exact Function.update_of_ne hm _ _
  | alter table a =>
    simp only [effect, Option.bind_eq_some_iff, Option.map_eq_some_iff] at h
    obtain ⟨t, -, t', -, rfl⟩ := h
    exact Function.update_of_ne hm _ _

/-! ## Tables that the connection has left alone -/

/-- Since `db` the tables for which `P` holds have been left alone, by each statement and at the end. -/
structure Leaves (P : String → Prop) (db db' : Conn δ) : Prop where
  done : ∃ new, db'.done = db.done ++ new ∧ ∀ e ∈ new, ∀ m, P m → e.2 m = db.tables m
  tables : ∀ m, P m → db'.tables m = db.tables m

namespace Leaves

variable {P Q : String → Prop} {db db' db'' : Conn δ}

theorem of_eq (ht : db'.tables = db.tables) (hd : db'.done = db.done) : Leaves P db db' :=
  ⟨⟨[], by simp [hd]⟩, fun _ _ => by rw [ht]⟩

theorem trans (h : Leaves P db db') (h' : Leaves P db' db'') : Leaves P db db'' := by
  obtain ⟨new, hn, he⟩ := h.done
  obtain ⟨new', hn', he'⟩ := h'.done
  refine ⟨⟨new ++ new', by rw [hn', hn, List.append_assoc], fun e hm m hp => ?_⟩, fun m hp => ?_⟩
  · rcases List.mem_append.mp hm with hm | hm
    · exact he e hm m hp
    · rw [he' e hm m hp, h.tables m hp]
  · rw [h'.tables m hp, h.tables m hp]

theorem mono (hq : ∀ m, Q m → P m) (h : Leaves P db db') : Leaves Q db db' := by
  obtain ⟨new, hn, he⟩ := h.done
  exact ⟨⟨new, hn, fun e hm m hp => he e hm m (hq m hp)⟩, fun m hp => h.tables m (hq m hp)⟩

end Leaves

section
variable (my : Mysql)

theorem query_leaves {α : Type} (P : String → Prop) (read : Tables δ → List α) (db : Conn δ) :
    Leaves P db (my.query read db).2 := by
  unfold Mysql.query
  split
  · exact .of_eq rfl rfl
  · exact .of_eq rfl rfl

theorem execute_leaves (st : Stmt) (db : Conn δ) : Leaves (fun m => m ≠ st.target) db (my.execute st db).2 := by
  unfold Mysql.execute
  cases hs : my.accepts db st with
  | none => exact .of_eq rfl rfl
  | some s =>
    have he : st.effect db.tables = some s := by
      unfold Mysql.accepts at hs
      split at hs
      · exact hs
      · cases hs
    refine ⟨⟨_, rfl, fun e hm m hp => ?_⟩, fun m hp => Stmt.effect_of_ne he hp⟩
    rw [List.mem_singleton.mp hm]
    exact Stmt.effect_of_ne he hp

theorem executeEach_leaves {n : String} : ∀ {l : List Stmt} (db : Conn δ), (∀ st ∈ l, st.target = n) →
    Leaves (fun m => m ≠ n) db (my.executeEach l db).2
  | [], _, _ => .of_eq rfl rfl
  | st :: l, db, h => by
    have hst : Leaves (fun m => m ≠ n) db (my.execute st db).2 := h st (by simp) ▸ execute_leaves my st db
    unfold Mysql.executeEach
    simp only
    split
    · exact hst
    · exact hst.trans (executeEach_leaves _ fun st hs => h st (List.mem_cons_of_mem _ hs))

theorem executeEach_map_leaves {α : Type} (n : String) (f : α → Alter) (xs : List α) (db : Conn δ) :
    Leaves (fun m => m ≠ n) db (my.executeEach (xs.map fun x => .alter n (f x)) db).2 := by
  apply executeEach_leaves
  intro st hst
  obtain ⟨x, -, rfl⟩ := List.mem_map.mp hst
  rfl

variable (cfg : MysqlTable) (db : Conn δ)

theorem deleteTableColumn_leaves : Leaves (fun m => m ≠ cfg.tableName) db (my.deleteTableColumn cfg db).2 := by
  have hq := query_leaves my (fun m => m ≠ cfg.tableName) (fun s => ((s cfg.tableName).map Table.names).getD []) db
  unfold Mysql.deleteTableColumn Mysql.getTableFields
  simp only
  split
  · exact hq
  split
  · exact hq
  · exact hq.trans (executeEach_leaves my _ fun st hst => by rw [List.mem_singleton.mp hst]; rfl)

theorem renameTableColumn_leaves : Leaves (fun m => m ≠ cfg.tableName) db (my.renameTableColumn cfg db).2 := by
  have hq := query_leaves my (fun m => m ≠ cfg.tableName) (fun s => ((s cfg.tableName).map Table.names).getD []) db
  unfold Mysql.renameTableColumn Mysql.getTableFields
  simp only
  split
  · exact hq
  · exact hq.trans (executeEach_map_leaves my _ _ _ _)

theorem modifyTableColumn_leaves : Leaves (fun m => m ≠ cfg.tableName) db (my.modifyTableColumn cfg db).2 := by
  have hq := query_leaves my (fun m => m ≠ cfg.tableName) (fun s => ((s cfg.tableName).map Table.names).getD []) db
  unfold Mysql.modifyTableColumn Mysql.getTableFields
  simp only
  split
  · exact hq
  · exact hq.trans (executeEach_map_leaves my _ _ _ _)

theorem addTableColumn_leaves : Leaves (fun m => m ≠ cfg.tableName) db (my.addTableColumn cfg db).2 := by
  have hq := query_leaves my (fun m => m ≠ cfg.tableName) (fun s => ((s cfg.tableName).map Table.names).getD []) db
  unfold Mysql.addTableColumn Mysql.getTableFields
  simp only
  split
  · exact hq
  split
  · exact hq
  split
  · exact hq
  · exact hq.trans (executeEach_map_leaves my _ (fun a => a) _ _)

theorem changeKey_leaves : Leaves (fun m => m ≠ cfg.tableName) db (my.changeKey cfg db).2 := by
  have hq := query_leaves my (fun m => m ≠ cfg.tableName) (fun s => ((s cfg.tableName).map Table.keyNames).getD []) db
  unfold Mysql.changeKey Mysql.getTableKeys
  simp only
  split
  · exact hq
  split
  · exact hq.trans (executeEach_map_leaves my _ _ _ _)
  · exact (hq.trans (executeEach_map_leaves my _ _ _ _)).trans (executeEach_map_leaves my _ _ _ _)

theorem changeTable_leaves : Leaves (fun m => m ≠ cfg.tableName) db (my.changeTable cfg db).2 := by
  have h₁ := deleteTableColumn_leaves my cfg db
  have h₂ := h₁.trans (renameTableColumn_leaves my cfg _)
  have h₃ := h₂.trans (modifyTableColumn_leaves my cfg _)
  have h₄ := h₃.trans (addTableColumn_leaves my cfg _)
  have h₅ := h₄.trans (changeKey_leaves my cfg _)
  unfold Mysql.changeTable
  simp only
  split
  · exact h₁
  split
  · exact h₂
  split
  · exact h₃
  split
  · exact h₄
  split
  · exact h₅
  · exact h₅

/-! ## The trial run -/

/-- The name of the copy that the trial run works on. -/
def MysqlTable.copyName : String := cfg.tableName ++ "_tmp"

theorem MysqlTable.copyName_ne : cfg.copyName ≠ cfg.tableName := by
  intro h
  have := congrArg String.length h
  simp [MysqlTable.copyName] at this

/-- The run comes to the trial migration, and it fails. -/
def TrialFails : Prop :=
  (my.getTableFields cfg db).1.1 = 0 ∧ (my.getTableFields cfg db).1.2 ≠ [] ∧
    (my.copyTable cfg.copyName cfg.tableName (my.getTableFields cfg db).2).1 = 0 ∧
    (my.changeTable { cfg with tableName := cfg.copyName }
      (my.copyTable cfg.copyName cfg.tableName (my.getTableFields cfg db).2).2).1 ≠ 0

/-- There are a table to migrate and another one under the name of the copy, and the server does not turn down what is
asked of it before the copy is made. -/
def DropsOther : Prop :=
  db.tables cfg.tableName ≠ none ∧ db.tables cfg.copyName ≠ none ∧ my.refuse db.asked = false ∧
    my.refuse (db.asked + 1) = false ∧ my.plain cfg.copyName = true

/-- Every statement leaves the other tables alone, those with the name of the copy among them, and a trial that fails
leaves the table and the configuration as they were. -/
structure MigratesAlone : Prop where
  others : Leaves (fun m => m ≠ cfg.tableName ∧ (m = cfg.copyName → db.tables cfg.copyName ≠ none)) db
    (my.createTable cfg db).2
  trial : TrialFails my cfg db → (my.createTable cfg db).2.tables cfg.tableName = db.tables cfg.tableName ∧
    (my.createTable cfg db).1.2 = cfg

theorem copyTable_leaves : Leaves (fun m => m ≠ cfg.copyName) (my.dropTable cfg.copyName db).2
    (my.copyTable cfg.copyName cfg.tableName db).2 := by
  have h := execute_leaves my (.createLike cfg.copyName cfg.tableName) (my.dropTable cfg.copyName db).2
  unfold Mysql.copyTable
  simp only
  split
  · exact h
  · exact h

theorem dropTable_leaves (n : String) : Leaves (fun m => m ≠ n) db (my.dropTable n db).2 :=
  execute_leaves my (.dropTable n) db

theorem createTable_leaves (hq : (my.getTableFields cfg db).1.1 = 0) (hf : (my.getTableFields cfg db).1.2 ≠ []) :
    Leaves (fun m => m ≠ cfg.tableName ∧ m ≠ cfg.copyName) (my.dropTable cfg.copyName (my.getTableFields cfg db).2).2
      (my.createTable cfg db).2 := by
  have h₁ := (copyTable_leaves my cfg (my.getTableFields cfg db).2).mono
    (Q := fun m => m ≠ cfg.tableName ∧ m ≠ cfg.copyName) fun _ hm => hm.2
  have h₂ := h₁.trans ((changeTable_leaves my { cfg with tableName := cfg.copyName } _).mono fun _ hm => hm.2)
  have h₃ := h₂.trans ((dropTable_leaves my _ cfg.copyName).mono fun _ hm => hm.2)
  have h₄ := h₃.trans ((changeTable_leaves my cfg _).mono fun _ hm => hm.1)
  unfold Mysql.createTable
  simp only [hq, hf, ne_eq, not_true_eq_false, if_false]
  split
  · exact h₁
  split
  · exact h₃
  split
  · exact h₄
  · exact h₄

theorem createTable_trial (h : TrialFails my cfg db) :
    (my.createTable cfg db).1 = (-1, { cfg with tableName := cfg.copyName }) ∧
      (my.createTable cfg db).2.tables cfg.tableName = db.tables cfg.tableName := by
  obtain ⟨hq, hf, hc, ht⟩ := h
  have hne := cfg.copyName_ne.symm
  have h₀ := query_leaves my (fun m => m ≠ cfg.copyName) (fun s => ((s cfg.tableName).map Table.names).getD []) db
  have h₁ := (h₀.trans (dropTable_leaves my _ cfg.copyName)).trans (copyTable_leaves my cfg _)
  have h₂ := h₁.trans (changeTable_leaves my { cfg with tableName := cfg.copyName } _)
  have h₃ := h₂.trans (dropTable_leaves my _ cfg.copyName)
  unfold Mysql.createTable
  simp only [MysqlTable.copyName] at hc ht ⊢
  simp only [hq, hf, hc, ht, ne_eq, not_true_eq_false, not_false_eq_true, if_false, if_true]
  exact ⟨trivial, h₃.tables _ hne⟩

/-! ## The first DROP TABLE -/

theorem getTableFields_conn : (my.getTableFields cfg db).2 = { db with asked := db.asked + 1 } := by
  unfold Mysql.getTableFields Mysql.query
  split
  · rfl
  · rfl

theorem getTableFields_table (hq : (my.getTableFields cfg db).1.1 = 0) (hf : (my.getTableFields cfg db).1.2 ≠ []) :
    db.tables cfg.tableName ≠ none ∧ my.refuse db.asked = false := by
  unfold Mysql.getTableFields Mysql.query at hq hf
  split at hq
  · cases hq
  · rename_i hr
    refine ⟨fun hn => hf ?_, by simpa using hr⟩
    simp [hr, hn]

theorem getTableFields_of_table (ht : db.tables cfg.tableName ≠ none) (hr : my.refuse db.asked = false) :
    (my.getTableFields cfg db).1.1 = 0 ∧ (my.getTableFields cfg db).1.2 ≠ [] := by
  obtain ⟨t, ht⟩ := Option.ne_none_iff_exists'.mp ht
  unfold Mysql.getTableFields Mysql.query
  simp only [hr, ht, Bool.false_eq_true, if_false, Option.map_some, Option.getD_some, true_and]
  intro hn
  exact t.legal.nonempty (List.map_eq_nil_iff.mp hn)

/-- Without a DROP TABLE the table under the name of the copy stops the run. -/
theorem createTable_kept (hq : (my.getTableFields cfg db).1.1 = 0) (hf : (my.getTableFields cfg db).1.2 ≠ [])
    (he : db.tables cfg.copyName ≠ none) (hd : ¬ (my.refuse (db.asked + 1) = false ∧ my.plain cfg.copyName = true)) :
    (my.createTable cfg db).2.tables = db.tables ∧ (my.createTable cfg db).2.done = db.done := by
  have hdrop : (my.dropTable cfg.copyName (my.getTableFields cfg db).2).2 = { db with asked := db.asked + 2 } := by
    rw [getTableFields_conn]
    have : my.accepts { db with asked := db.asked + 1 } (.dropTable cfg.copyName) = none := by
      unfold Mysql.accepts
      rw [if_neg]
      simpa [Stmt.bare] using hd
    simp [Mysql.dropTable, Mysql.execute, this]
  have hcopy : my.copyTable cfg.copyName cfg.tableName (my.getTableFields cfg db).2 =
      (-1, { db with asked := db.asked + 3 }) := by
    have : my.accepts { db with asked := db.asked + 2 } (.createLike cfg.copyName cfg.tableName) = none := by
      unfold Mysql.accepts
      split
      · simp [Stmt.effect, he]
      · rfl
    simp [Mysql.copyTable, hdrop, Mysql.execute, this]
  unfold Mysql.createTable
  simp only [MysqlTable.copyName] at hcopy
  simp [hq, hf, hcopy]

theorem dropTable_done (h : DropsOther my cfg db) : ∃ s, s cfg.copyName = none ∧
    (my.dropTable cfg.copyName (my.getTableFields cfg db).2).2.done = db.done ++ [(.dropTable cfg.copyName, s)] := by
  obtain ⟨-, he, -, hr, hp⟩ := h
  obtain ⟨t, he⟩ := Option.ne_none_iff_exists'.mp he
  refine ⟨Function.update db.tables cfg.copyName none, Function.update_self _ _ _, ?_⟩
  rw [getTableFields_conn]
  have : my.accepts { db with asked := db.asked + 1 } (.dropTable cfg.copyName) =
      some (Function.update db.tables cfg.copyName none) := by
    unfold Mysql.accepts
    rw [if_pos ⟨hr, by simpa [Stmt.bare] using hp⟩]
    simp [Stmt.effect, he]
  simp [Mysql.dropTable, Mysql.execute, this]

theorem createTable_others (hd : ¬ DropsOther my cfg db) :
    Leaves (fun m => m ≠ cfg.tableName ∧ (m = cfg.copyName → db.tables cfg.copyName ≠ none)) db
      (my.createTable cfg db).2 := by
  have hleaves := query_leaves my (fun m => m ≠ cfg.tableName ∧ (m = cfg.copyName → db.tables cfg.copyName ≠ none))
    (fun s => ((s cfg.tableName).map Table.names).getD []) db
  by_cases hq : (my.getTableFields cfg db).1.1 = 0
  · by_cases hf : (my.getTableFields cfg db).1.2 = []
    · -- a new table
      have h := hleaves.trans ((execute_leaves my (.createTable cfg.tableName cfg.newColumns cfg.keys) _).mono
        fun _ hm => hm.1)
      unfold Mysql.createTable
      simp only [hq, hf, ne_eq, not_true_eq_false, if_false, if_true]
      split
      · exact h
      · exact h
    · by_cases he : db.tables cfg.copyName = none
      · have hsub : ∀ m, m ≠ cfg.tableName ∧ (m = cfg.copyName → db.tables cfg.copyName ≠ none) → m ≠ cfg.copyName :=
          fun m hm hmc => hm.2 hmc he
        exact (hleaves.trans ((dropTable_leaves my _ cfg.copyName).mono hsub)).trans
          ((createTable_leaves my cfg db hq hf).mono fun m hm => ⟨hm.1, hsub m hm⟩)
      · obtain ⟨ht, hr⟩ := getTableFields_table my cfg db hq hf
        obtain ⟨h₁, h₂⟩ := createTable_kept my cfg db hq hf he fun h => hd ⟨ht, he, hr, h.1, h.2⟩
        exact .of_eq h₁ h₂
  · unfold Mysql.createTable
    simp only [hq, ne_eq, not_false_eq_true, if_true]
    exact hleaves

/-- A migration leaves everything alone that is not its own exactly if it drops no table under the name of the copy and
the trial does not fail. -/
theorem migratesAlone_iff : MigratesAlone my cfg db ↔ ¬ DropsOther my cfg db ∧ ¬ TrialFails my cfg db := by
  refine ⟨fun h => ⟨fun hd => ?_, fun ht => ?_⟩, fun ⟨hd, ht⟩ => ⟨createTable_others my cfg db hd, fun h => absurd h ht⟩⟩
  · obtain ⟨new, hn, he⟩ := h.others.done
    obtain ⟨s, hs, hdone⟩ := dropTable_done my cfg db hd
    obtain ⟨hq, hf⟩ := getTableFields_of_table my cfg db hd.1 hd.2.2.1
    obtain ⟨new', hn', -⟩ := (createTable_leaves my cfg db hq hf).done
    rw [hn, hdone, List.append_assoc] at hn'
    have hmem : (Stmt.dropTable cfg.copyName, s) ∈ new := by
      rw [List.append_cancel_left hn']
      simp
    have := he _ hmem cfg.copyName ⟨cfg.copyName_ne, fun _ => hd.2.1⟩
    exact hd.2.1 (this ▸ hs)
  · have hc := (h.trial ht).2
    rw [(createTable_trial my cfg db ht).1] at hc
    exact cfg.copyName_ne (congrArg MysqlTable.tableName hc)

end

/-! ## Two tables, one named like the copy of the other -/

def oneColumnTable : MysqlTable where
  tableName := "t"
  fields := [{ name := "a", type := some .int }]

def oneColumn : Table Unit where
  columns := [{ name := "a", defn := { type := "INT" }, data := some () }]
  keys := []
  legal := by decide

def twoTables : Conn Unit where
  tables := fun n => if n = "t" ∨ n = "t_tmp" then some oneColumn else none

theorem oneColumnTable_accepted : Accepted oneColumnTable := .of_checkTable (t := oneColumnTable) (by rfl)

/-- The migration of a table drops another one. -/
theorem createTable_drops_other : ¬ ∀ (my : Mysql) (cfg : MysqlTable) (db : Conn Unit), Accepted cfg →
    MigratesAlone my cfg db := by
  intro h
  have := (h .calm oneColumnTable twoTables oneColumnTable_accepted).others.tables "t_tmp"
    ⟨by decide, fun _ => by decide⟩
  revert this
  decide

end GlobalServer.Dbtool
