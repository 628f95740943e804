import GlobalServer.Dbtool.Stages
import GlobalServer.Dbtool.ConfSound

/-!
# The keys after a migration

`ChangeKey` adds the keys whose names the table lacks and drops those whose
names are not configured. A key whose name is there already is not looked at.
-/

namespace GlobalServer.Dbtool

variable {δ : Type} {cfg : MysqlTable}

theorem Checked.key_name {t : MysqlTable} (h : Checked t cfg) {k : TableKey} (hk : k ∈ cfg.keys) : k.key.name = k.name := by
  rw [h.result] at hk
  obtain ⟨k, -, rfl⟩ := List.mem_map.mp hk
  simp only [TableKey.key, TableKey.renamed_getType]
  split
  · rename_i hp
    rw [TableKey.renamed_name, if_pos hp]
  · rfl

theorem mem_keyPlan_keys (hn : ∀ k ∈ cfg.keys, k.key.name = k.name) {t t' : Table δ}
    (h : applyAll (cfg.keyPlan t.sortedKeyNames) t = some t') (k : Key) : k ∈ t'.keys ↔
      k ∈ t.keys ∧ k.name ∈ cfg.keys.map TableKey.name ∨ ∃ c ∈ cfg.keys, c.name ∉ t.keyNames ∧ c.key = k := by
  have hname : k ∈ t.keys → k.name ∈ t.keyNames := List.mem_map_of_mem
  rw [(keyPlan_result h).1]
  simp only [List.mem_filter, List.mem_append, List.mem_map, Table.mem_sortedKeyNames, decide_eq_true_eq, MysqlTable.newKeys,
    not_and, not_not]
  refine ⟨fun h => ?_, fun hk => ?_⟩
  · obtain ⟨hk | ⟨c, ⟨hc, hcn⟩, he⟩, hw⟩ := h
    · exact .inl ⟨hk, hw (hname hk)⟩
    · exact .inr ⟨c, hc, hcn, he⟩
  · rcases hk with ⟨hk, hw⟩ | ⟨c, hc, hcn, rfl⟩
    · exact ⟨.inl hk, fun _ => hw⟩
    · exact ⟨.inr ⟨c, ⟨hc, hcn⟩, rfl⟩, fun _ => ⟨c, hc, (hn c hc).symm⟩⟩

theorem keyPlan_keyNames (hn : ∀ k ∈ cfg.keys, k.key.name = k.name) {t t' : Table δ}
    (h : applyAll (cfg.keyPlan t.sortedKeyNames) t = some t') (n : String) :
    n ∈ t'.keyNames ↔ n ∈ cfg.keys.map TableKey.name := by
  refine ⟨fun hm => ?_, fun hm => ?_⟩
  · obtain ⟨k, hk, rfl⟩ := List.mem_map.mp hm
    rcases (mem_keyPlan_keys hn h k).mp hk with ⟨-, hw⟩ | ⟨c, hc, -, rfl⟩
    · exact hw
    · exact List.mem_map.mpr ⟨c, hc, (hn c hc).symm⟩
  · obtain ⟨c, hc, rfl⟩ := List.mem_map.mp hm
    by_cases ht : c.name ∈ t.keyNames
    · obtain ⟨k, hk, he⟩ := List.mem_map.mp ht
      exact List.mem_map.mpr ⟨k, (mem_keyPlan_keys hn h k).mpr (.inl ⟨hk, he ▸ hm⟩), he⟩
    · exact List.mem_map.mpr ⟨c.key, (mem_keyPlan_keys hn h c.key).mpr (.inr ⟨c, hc, ht, rfl⟩), hn c hc⟩

/-- The keys are the configured ones exactly if those that the table had under a configured name were. -/
theorem keyPlan_keys_iff (hn : ∀ k ∈ cfg.keys, k.key.name = k.name) {t t' : Table δ}
    (h : applyAll (cfg.keyPlan t.sortedKeyNames) t = some t') : (∀ k, k ∈ t'.keys ↔ k ∈ cfg.wantKeys) ↔
      ∀ c ∈ cfg.keys, c.name ∈ t.keyNames → c.key ∈ t.keys := by
  refine ⟨fun he c hc ht => ?_, fun hs k => ?_⟩
  · obtain ⟨k, hk, hkn⟩ := List.mem_map.mp ht
    have hk' : k ∈ t'.keys := (mem_keyPlan_keys hn h k).mpr (.inl ⟨hk, hkn ▸ List.mem_map_of_mem hc⟩)
    have hc' : c.key ∈ t'.keys := (he _).mpr (List.mem_map_of_mem hc)
    rw [List.inj_on_of_nodup_map t'.legal.keyNames hc' hk' (by rw [hn c hc, hkn])]
    exact hk
  · rw [mem_keyPlan_keys hn h]
    refine ⟨fun hk => ?_, fun hk => ?_⟩
    · rcases hk with ⟨hk, hw⟩ | ⟨c, hc, -, rfl⟩
      · obtain ⟨c, hc, he⟩ := List.mem_map.mp hw
        have hct := hs c hc (he ▸ List.mem_map_of_mem hk)
        rw [← List.inj_on_of_nodup_map t.legal.keyNames hct hk (by rw [hn c hc, he])]
        exact List.mem_map_of_mem hc
      · exact List.mem_map_of_mem hc
    · obtain ⟨c, hc, rfl⟩ := List.mem_map.mp hk
      by_cases ht : c.name ∈ t.keyNames
      · exact .inl ⟨hs c hc ht, by rw [hn c hc]; exact List.mem_map_of_mem hc⟩
      · exact .inr ⟨c, hc, ht, rfl⟩

/-- When `ChangeKey` reports success the table has the configured keys, exactly if the keys that it had under a
configured name were of the configured kind and on the configured columns. -/
theorem changeKey_keys_iff {my : Mysql} {db : Conn δ} {t : Table δ} (ha : Accepted cfg)
    (ht : db.tables cfg.tableName = some t) (h : (my.changeKey cfg db).1 = 0) :
    ∃ t', (my.changeKey cfg db).2.tables cfg.tableName = some t' ∧
      ((∀ k, k ∈ t'.keys ↔ k ∈ cfg.wantKeys) ↔ ∀ c ∈ cfg.keys, c.name ∈ t.keyNames → c.key ∈ t.keys) := by
  obtain ⟨t₀, hc⟩ := ha.checked
  obtain ⟨t', ha, hs⟩ := changeKey_ok ht h
  exact ⟨t', hs.table, keyPlan_keys_iff (fun k hk => hc.key_name hk) ha⟩

/-! ## A key whose kind has changed -/

def uniqueKeyTable : MysqlTable where
  tableName := "t"
  fields := [{ name := "a", type := some .int }]
  keys := [{ name := "k", type := some .unique, fields := ["a"] }]

def normalKeyTable : Table Unit where
  columns := [{ name := "a", defn := { type := "INT" }, data := some () }]
  keys := [{ name := "k", kind := .normal, columns := ["a"] }]
  legal := by decide

def normalKeyConn : Conn Unit where
  tables := fun n => if n = "t" then some normalKeyTable else none

theorem uniqueKeyTable_accepted : Accepted uniqueKeyTable := .of_checkTable (t := uniqueKeyTable) (by rfl)

/-- A key that is to become a unique one stays as it is, and `ChangeKey` reports success. -/
theorem changeKey_changed_kind : ¬ ∀ (my : Mysql) (cfg : MysqlTable) (db : Conn Unit) (t t' : Table Unit), Accepted cfg →
    db.tables cfg.tableName = some t → (my.changeKey cfg db).1 = 0 →
    (my.changeKey cfg db).2.tables cfg.tableName = some t' → ∀ k, k ∈ t'.keys ↔ k ∈ cfg.wantKeys := by
  intro h
  have := (h .calm uniqueKeyTable normalKeyConn normalKeyTable normalKeyTable uniqueKeyTable_accepted rfl (by decide)
    (by decide) { name := "k", kind := .normal, columns := ["a"] }).mp (by decide)
  revert this
  decide

theorem changeKey_keys_normalKey : ∃ t', (Mysql.calm.changeKey uniqueKeyTable normalKeyConn).2.tables "t" = some t' ∧
    ((∀ k, k ∈ t'.keys ↔ k ∈ uniqueKeyTable.wantKeys) ↔
      ∀ c ∈ uniqueKeyTable.keys, c.name ∈ normalKeyTable.keyNames → c.key ∈ normalKeyTable.keys) :=
  changeKey_keys_iff uniqueKeyTable_accepted rfl (by decide)

end GlobalServer.Dbtool
