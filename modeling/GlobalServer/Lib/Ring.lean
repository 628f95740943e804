import Mathlib.Data.List.Basic
import Mathlib.Data.Nat.ModEq
import Mathlib.Logic.Function.Basic

/-!
# Rings of cells

A ring has `n` cells, and some of them hold lists. Read round once from a
cell, they are the contents of the ring: what is put at the end of the last
cell that holds something comes last, and a first cell that is emptied takes its
list off the front.
-/

namespace Ring

variable {n c : Nat}

/-- The cell `j` steps after `c`. -/
def cell (n c j : Nat) : Nat := (c + j) % n

theorem cell_lt (hn : 0 < n) (c j : Nat) : cell n c j < n := Nat.mod_lt _ hn

theorem cell_zero (hc : c < n) : cell n c 0 = c := Nat.mod_eq_of_lt hc

theorem cell_size (hc : c < n) : cell n c n = c := by
  rw [cell, Nat.add_mod_right, Nat.mod_eq_of_lt hc]

theorem cell_succ (n c j : Nat) : (cell n c j + 1) % n = cell n c (j + 1) := Nat.mod_add_mod ..

theorem cell_next (n c j : Nat) : cell n ((c + 1) % n) j = cell n c (j + 1) := by
  rw [cell, Nat.mod_add_mod, Nat.add_assoc, Nat.add_comm 1]
  rfl

theorem cell_inj {i j : Nat} (hi : i < n) (hj : j < n) : cell n c i = cell n c j ↔ i = j := by
  constructor
  · intro h
    have hmod : i ≡ j [MOD n] := Nat.ModEq.add_left_cancel' c h
    exact hmod.eq_of_lt_of_lt hi hj
  · intro h
    rw [h]

theorem cell_surj {i : Nat} (hc : c < n) (hi : i < n) : ∃ j < n, cell n c j = i := by
  refine ⟨(i + (n - c)) % n, Nat.mod_lt _ (by omega), ?_⟩
  have hsum : c + (i + (n - c)) = i + n := by omega
  rw [cell, Nat.add_mod_mod, hsum, Nat.add_mod_right, Nat.mod_eq_of_lt hi]

theorem cell_cases {j : Nat} (hc : c < n) (hj : j < n) :
    (c + j < n ∧ cell n c j = c + j) ∨ n ≤ c + j ∧ cell n c j = c + j - n := by
  rcases Nat.lt_or_ge (c + j) n with h | h
  · exact .inl ⟨h, Nat.mod_eq_of_lt h⟩
  · refine .inr ⟨h, ?_⟩
    rw [cell, Nat.mod_eq_sub_mod h, Nat.mod_eq_of_lt (by omega)]

theorem cell_distance {j : Nat} (hc : c < n) (hj : j < n) : (n - c + cell n c j) % n = j := by
  rcases cell_cases hc hj with ⟨-, h⟩ | ⟨hle, h⟩
  · have he : n - c + (c + j) = j + n := by omega
    rw [h, he, Nat.add_mod_right, Nat.mod_eq_of_lt hj]
  · have he : n - c + (c + j - n) = j := by omega
    rw [h, he, Nat.mod_eq_of_lt hj]

theorem cell_pred {j : Nat} (hc : c < n) (hj : j + 1 < n) : (n + cell n c (j + 1) - 1) % n = cell n c j := by
  rw [cell.eq_1 n c j]
  rcases cell_cases hc hj with ⟨-, h⟩ | ⟨hle, h⟩
  · have he : n + (c + (j + 1)) - 1 = c + j + n := by omega
    rw [h, he, Nat.add_mod_right]
  · have he : n + (c + (j + 1) - n) - 1 = c + j := by omega
    rw [h, he]

variable {α : Type} {f : Nat → List α}

def contents (n : Nat) (f : Nat → List α) (c : Nat) : List α := (List.range n).flatMap fun j => f (cell n c j)

/-- What comes after the cell at `c`. -/
def rest (n : Nat) (f : Nat → List α) (c : Nat) : List α := (List.range (n - 1)).flatMap fun j => f (cell n c (j + 1))

theorem contents_eq (hc : c < n) : contents n f c = f c ++ rest n f c := by
  obtain ⟨k, rfl⟩ : ∃ k, n = k + 1 := ⟨n - 1, by omega⟩
  rw [contents, List.range_succ_eq_map, List.flatMap_cons, cell_zero hc, List.flatMap_map]
  rfl

theorem rest_eq_nil (h : ∀ j < n, 0 < j → f (cell n c j) = []) : rest n f c = [] := by
  refine List.flatMap_eq_nil_iff.mpr fun j hj => ?_
  have hj : j < n - 1 := List.mem_range.mp hj
  exact h (j + 1) (by omega) (Nat.succ_pos j)

theorem mem_rest (hc : c < n) {x : α} : x ∈ rest n f c ↔ ∃ i < n, i ≠ c ∧ x ∈ f i := by
  rw [rest, List.mem_flatMap]
  constructor
  · intro ⟨j, hj, hx⟩
    have hj : j < n - 1 := List.mem_range.mp hj
    refine ⟨_, cell_lt (by omega) c (j + 1), fun h => ?_, hx⟩
    have hz := (cell_inj (by omega) (by omega)).mp (h.trans (cell_zero hc).symm)
    omega
  · intro ⟨i, hi, hne, hx⟩
    obtain ⟨j, hj, rfl⟩ := cell_surj hc hi
    have h0 : j ≠ 0 := fun h => hne (h ▸ cell_zero hc)
    refine ⟨j - 1, List.mem_range.mpr (by omega), ?_⟩
    rwa [Nat.sub_add_cancel (Nat.pos_of_ne_zero h0)]

theorem contents_next (hc : c < n) : contents n (Function.update f c []) ((c + 1) % n) = rest n f c := by
  obtain ⟨k, rfl⟩ : ∃ k, n = k + 1 := ⟨n - 1, by omega⟩
  rw [contents, List.range_succ, List.flatMap_append, List.flatMap_singleton, cell_next, cell_size hc,
    Function.update_self, List.append_nil, rest]
  refine List.flatMap_congr fun j hj => ?_
  have hj : j < k := List.mem_range.mp hj
  have hne : cell (k + 1) c (j + 1) ≠ cell (k + 1) c 0 := fun h => by
    have hz := (cell_inj (by omega) (by omega)).mp h
    omega
  rw [cell_zero hc] at hne
  rw [cell_next, Function.update_of_ne hne]

theorem flatMap_put {g h : Nat → List α} {o : Nat} {l : List α} (hlt : ∀ j < o, h j = g j) (heq : h o = g o ++ l) :
    ∀ n, o < n → (∀ j < n, o < j → h j = [] ∧ g j = []) → (List.range n).flatMap h = (List.range n).flatMap g ++ l := by
  intro n
  induction n with
  | zero => exact fun ho => absurd ho (Nat.not_lt_zero o)
  | succ n ih =>
    intro ho hgt
    rw [List.range_succ, List.flatMap_append, List.flatMap_append, List.flatMap_singleton, List.flatMap_singleton]
    rcases Nat.lt_or_eq_of_le (Nat.le_of_lt_succ ho) with hon | rfl
    · obtain ⟨hh, hg⟩ := hgt n (Nat.lt_succ_self n) hon
      rw [hh, hg, List.append_nil, List.append_nil]
      exact ih hon fun j hj => hgt j (Nat.lt_succ_of_lt hj)
    · rw [heq, List.append_assoc, List.flatMap_congr fun j hj => hlt j (List.mem_range.mp hj)]

theorem contents_put {o : Nat} (ho : o < n) (he : ∀ j < n, o < j → f (cell n c j) = []) (l : List α) :
    contents n (Function.update f (cell n c o) (f (cell n c o) ++ l)) c = contents n f c ++ l := by
  have hold : ∀ j < n, j ≠ o →
      Function.update f (cell n c o) (f (cell n c o) ++ l) (cell n c j) = f (cell n c j) := by
    intro j hj hne
    rw [Function.update_of_ne fun h => hne ((cell_inj hj ho).mp h)]
  refine flatMap_put (fun j hj => hold j (by omega) (by omega)) (Function.update_self ..) n ho fun j hj hoj => ?_
  rw [hold j hj (by omega), he j hj hoj]
  exact ⟨rfl, rfl⟩

end Ring
