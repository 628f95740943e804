import GlobalServer.Lib.Assign
import Mathlib.Order.Lattice
import Mathlib.Data.List.Pairwise

/-!
# Ordered maps as sorted lists

A map with one value for each key, in key order. Insertion keeps the value a
key already has, assignment replaces it.
-/

namespace OrdMap

variable {κ β : Type} [LinearOrder κ]

def insert (k : κ) (v : β) : List (κ × β) → List (κ × β)
  | [] => [(k, v)]
  | x :: l => if k < x.1 then (k, v) :: x :: l else if k = x.1 then x :: l else x :: insert k v l

def Sorted (l : List (κ × β)) : Prop := l.Pairwise fun x y => x.1 < y.1

theorem sorted_nil : Sorted ([] : List (κ × β)) := List.Pairwise.nil

theorem mem_insert_of_absent {k : κ} {v : β} {x : κ × β} : ∀ {l : List (κ × β)}, (∀ y ∈ l, y.1 ≠ k) →
    (x ∈ insert k v l ↔ x = (k, v) ∨ x ∈ l)
  | [], _ => by simp [insert]
  | y :: l, h => by
    have hy : k ≠ y.1 := fun e => h y (by simp) e.symm
    have ih := mem_insert_of_absent (v := v) (x := x) fun z hz => h z (List.mem_cons_of_mem y hz)
    simp only [insert, if_neg hy]
    split
    · simp
    · rw [List.mem_cons, ih, List.mem_cons, or_left_comm]

theorem insert_of_present {k : κ} {v : β} : ∀ {l : List (κ × β)}, Sorted l → (∃ y ∈ l, y.1 = k) → insert k v l = l
  | [], _, h => by obtain ⟨y, hy, _⟩ := h; cases hy
  | y :: l, hs, h => by
    obtain ⟨hlt, hl⟩ := List.pairwise_cons.mp hs
    obtain ⟨z, hz, rfl⟩ := h
    unfold insert
    rcases List.mem_cons.mp hz with rfl | hz
    · rw [if_neg (lt_irrefl _), if_pos rfl]
    · have hyz := hlt z hz
      rw [if_neg (not_lt_of_gt hyz), if_neg (ne_of_gt hyz), insert_of_present hl ⟨z, hz, rfl⟩]

theorem mem_of_insert {k : κ} {v : β} {x : κ × β} {l : List (κ × β)} (hs : Sorted l) (hx : x ∈ insert k v l) :
    x = (k, v) ∨ x ∈ l := by
  by_cases hp : ∃ y ∈ l, y.1 = k
  · rw [insert_of_present hs hp] at hx
    exact Or.inr hx
  · exact (mem_insert_of_absent fun y hy e => hp ⟨y, hy, e⟩).mp hx

theorem mem_insert_iff {k j : κ} {l : List (κ × Unit)} (hs : Sorted l) : (j, ()) ∈ insert k () l ↔ j = k ∨
    (j, ()) ∈ l := by
  by_cases hp : ∃ y ∈ l, y.1 = k
  · rw [insert_of_present hs hp]
    obtain ⟨⟨y, ⟨⟩⟩, hy, rfl⟩ := hp
    constructor
    · exact Or.inr
    · rintro (rfl | hj)
      · exact hy
      · exact hj
  · rw [mem_insert_of_absent fun y hy e => hp ⟨y, hy, e⟩]
    simp

theorem mem_keys {α : Type*} {j : α} {l : List (α × Unit)} : j ∈ l.map Prod.fst ↔ (j, ()) ∈ l := by
  simp only [List.mem_map, Prod.exists, exists_and_right, exists_eq_right]
  constructor
  · rintro ⟨⟨⟩, hj⟩
    exact hj
  · exact fun hj => ⟨(), hj⟩

theorem sorted_insert {k : κ} {v : β} : ∀ {l : List (κ × β)}, Sorted l → Sorted (insert k v l)
  | [], _ => List.pairwise_singleton _ _
  | y :: l, hs => by
    obtain ⟨hlt, hl⟩ := List.pairwise_cons.mp hs
    unfold insert
    split
    · rename_i hk
      refine List.pairwise_cons.mpr ⟨fun z hz => ?_, hs⟩
      rcases List.mem_cons.mp hz with rfl | hz
      · exact hk
      · exact lt_trans hk (hlt z hz)
    · rename_i hk
      split
      · exact hs
      · rename_i hne
        have hyk : y.1 < k := lt_of_le_of_ne (not_lt.mp hk) (Ne.symm hne)
        refine List.pairwise_cons.mpr ⟨fun z hz => ?_, sorted_insert hl⟩
        by_cases hp : ∃ w ∈ l, w.1 = k
        · rw [insert_of_present hl hp] at hz
          exact hlt z hz
        · rw [mem_insert_of_absent fun w hw e => hp ⟨w, hw, e⟩] at hz
          rcases hz with rfl | hz
          · exact hyk
          · exact hlt z hz

/-! ## Assignment -/

def assign (k : κ) (v : β) : List (κ × β) → List (κ × β)
  | [] => [(k, v)]
  | x :: l => if k < x.1 then (k, v) :: x :: l else if k = x.1 then (k, v) :: l else x :: assign k v l

theorem mem_assign {k : κ} {v : β} {x : κ × β} {l : List (κ × β)} (hs : Sorted l) :
    x ∈ assign k v l ↔ x = (k, v) ∨ x ∈ l ∧ x.1 ≠ k := by
  induction l with
  | nil => simp [assign]
  | cons y l ih =>
    obtain ⟨hy, hl⟩ := List.pairwise_cons.mp hs
    unfold assign
    split
    · rename_i hk
      have hne : ∀ z ∈ y :: l, z.1 ≠ k := by
        intro z hz
        rcases List.mem_cons.mp hz with rfl | hz
        · exact ne_of_gt hk
        · exact ne_of_gt (lt_trans hk (hy z hz))
      rw [List.mem_cons]
      exact or_congr_right ⟨fun hx => ⟨hx, hne x hx⟩, fun hx => hx.1⟩
    · rename_i hk
      split
      · rename_i he
        have hne : ∀ z ∈ l, z.1 ≠ k := fun z hz => he ▸ ne_of_gt (hy z hz)
        rw [List.mem_cons, List.mem_cons]
        refine or_congr_right ⟨fun hx => ⟨.inr hx, hne x hx⟩, fun hx => ?_⟩
        rcases hx.1 with rfl | hx'
        · exact absurd he.symm hx.2
        · exact hx'
      · rename_i hne
        rw [List.mem_cons, ih hl, List.mem_cons]
        constructor
        · rintro (rfl | rfl | hx)
          · exact .inr ⟨.inl rfl, Ne.symm hne⟩
          · exact .inl rfl
          · exact .inr ⟨.inr hx.1, hx.2⟩
        · rintro (rfl | ⟨rfl | hx, hxk⟩)
          · exact .inr (.inl rfl)
          · exact .inl rfl
          · exact .inr (.inr ⟨hx, hxk⟩)

theorem sorted_assign {k : κ} {v : β} {l : List (κ × β)} (hs : Sorted l) : Sorted (assign k v l) := by
  induction l with
  | nil => exact List.pairwise_singleton _ _
  | cons y l ih =>
    obtain ⟨hy, hl⟩ := List.pairwise_cons.mp hs
    unfold assign
    split
    · rename_i hk
      refine List.pairwise_cons.mpr ⟨fun z hz => ?_, hs⟩
      rcases List.mem_cons.mp hz with rfl | hz
      · exact hk
      · exact lt_trans hk (hy z hz)
    · rename_i hk
      split
      · rename_i he
        exact List.pairwise_cons.mpr ⟨fun z hz => he ▸ hy z hz, hl⟩
      · rename_i hne
        refine List.pairwise_cons.mpr ⟨fun z hz => ?_, ih hl⟩
        rcases (mem_assign hl).mp hz with rfl | hz
        · exact lt_of_le_of_ne (not_lt.mp hk) (Ne.symm hne)
        · exact hy z hz.1

theorem mem_keys_assign {k j : κ} {v : β} : ∀ {l : List (κ × β)},
    j ∈ (assign k v l).map Prod.fst ↔ j = k ∨ j ∈ l.map Prod.fst
  | [] => by simp [assign]
  | x :: l => by
    unfold assign
    split
    · simp
    · split
      · rename_i he
        simp only [List.map_cons, List.mem_cons, he, or_self_left]
      · simp only [List.map_cons, List.mem_cons, mem_keys_assign (l := l)]
        exact or_left_comm

theorem of_mem_assign {k : κ} {v : β} {x : κ × β} : ∀ {l : List (κ × β)}, x ∈ assign k v l → x = (k, v) ∨ x ∈ l
  | [], h => by simpa [assign] using h
  | y :: l, h => by
    unfold assign at h
    split at h
    · exact List.mem_cons.mp h
    · split at h
      · exact (List.mem_cons.mp h).imp_right fun h => List.mem_cons_of_mem y h
      · rcases List.mem_cons.mp h with rfl | h
        · exact .inr (by simp)
        · exact (of_mem_assign h).imp_right fun h => List.mem_cons_of_mem y h

def ofList (l : List (κ × β)) : List (κ × β) := l.foldl (fun m x => assign x.1 x.2 m) []

theorem ofList_spec (l : List (κ × β)) : Sorted (ofList l) ∧
    ∀ x, x ∈ ofList l ↔ ∃ l₁ l₂, l = l₁ ++ x :: l₂ ∧ ∀ y ∈ l₂, y.1 ≠ x.1 :=
  Assign.mem_foldl sorted_nil (fun _ _ _ => sorted_assign) (fun _ _ _ _ => mem_assign) l

theorem mem_keys_foldl {j : κ} : ∀ {l m : List (κ × β)},
    j ∈ (l.foldl (fun m x => assign x.1 x.2 m) m).map Prod.fst ↔ j ∈ l.map Prod.fst ∨ j ∈ m.map Prod.fst
  | [], m => by simp
  | x :: l, m => by
    rw [List.foldl_cons, mem_keys_foldl, mem_keys_assign, List.map_cons, List.mem_cons, or_left_comm, or_assoc]

theorem mem_keys_ofList {j : κ} {l : List (κ × β)} : j ∈ (ofList l).map Prod.fst ↔ j ∈ l.map Prod.fst := by
  rw [ofList, mem_keys_foldl]
  simp

/-! ## Looking keys up -/

theorem lookup_cons_ne {k j : κ} {v : β} {l : List (κ × β)} (h : k ≠ j) : ((j, v) :: l).lookup k = l.lookup k := by
  rw [List.lookup_cons, beq_false_of_ne h]

theorem mem_of_lookup {k : κ} {v : β} : ∀ {l : List (κ × β)}, l.lookup k = some v → (k, v) ∈ l
  | (j, w) :: l, h => by
    by_cases hk : k = j
    · subst hk
      rw [List.lookup_cons_self] at h
      cases h
      simp
    · rw [lookup_cons_ne hk] at h
      exact List.mem_cons_of_mem _ (mem_of_lookup h)

theorem lookup_eq_some_iff {k : κ} {v : β} : ∀ {l : List (κ × β)}, (l.map Prod.fst).Nodup →
    (l.lookup k = some v ↔ (k, v) ∈ l)
  | [], _ => by simp
  | (j, w) :: l, hd => by
    obtain ⟨hj, hd⟩ := List.nodup_cons.mp hd
    by_cases hk : k = j
    · subst hk
      rw [List.lookup_cons_self, List.mem_cons]
      refine ⟨fun h => .inl (by cases h; rfl), fun h => ?_⟩
      rcases h with h | h
      · cases h
        rfl
      · exact absurd (List.mem_map_of_mem (f := Prod.fst) h) hj
    · rw [lookup_cons_ne hk, lookup_eq_some_iff hd, List.mem_cons]
      refine ⟨.inr, fun h => h.resolve_left fun he => hk ?_⟩
      cases he
      rfl

theorem lookup_filter {P : κ → Prop} [DecidablePred P] {k : κ} (hk : P k) : ∀ l : List (κ × β),
    (l.filter fun x => P x.1).lookup k = l.lookup k
  | [] => rfl
  | (j, w) :: l => by
    by_cases hj : P j
    · rw [List.filter_cons_of_pos (by simpa using hj)]
      by_cases hkj : k = j
      · rw [hkj, List.lookup_cons_self, List.lookup_cons_self]
      · rw [lookup_cons_ne hkj, lookup_cons_ne hkj, lookup_filter hk l]
    · have hkj : k ≠ j := fun he => hj (he ▸ hk)
      rw [List.filter_cons_of_neg (by simpa using hj), lookup_cons_ne hkj, lookup_filter hk l]

theorem nodup_keys {l : List (κ × β)} (h : Sorted l) : (l.map Prod.fst).Nodup :=
  List.pairwise_map.mpr (h.imp fun hlt => ne_of_lt hlt)

theorem Sorted.lookup_iff {k : κ} {v : β} {l : List (κ × β)} (h : Sorted l) : l.lookup k = some v ↔ (k, v) ∈ l :=
  lookup_eq_some_iff (nodup_keys h)

end OrdMap
