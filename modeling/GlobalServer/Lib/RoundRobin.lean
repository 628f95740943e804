import Mathlib.Data.List.Rotate
import Mathlib.Data.List.Count

/-!
# Dealing round

What is dealt in some turns round a list, from any place of it: every member of
a list without repetitions gets its share, up to one.
-/

namespace RoundRobin

variable {α : Type}

/-- `n` turns round `l`, from place `i` on. -/
def dealt (l : List α) (i : Nat) : Nat → List α
  | 0 => []
  | n + 1 => l[i % l.length]?.toList ++ dealt l (i + 1) n

theorem dealt_add (l : List α) (i m n : Nat) : dealt l i (m + n) = dealt l i m ++ dealt l (i + m) n := by
  induction m generalizing i with
  | zero => simp [dealt]
  | succ m ih => rw [Nat.succ_add, dealt, dealt, ih, List.append_assoc, Nat.succ_add_eq_add_succ]

theorem dealt_succ (l : List α) (i n : Nat) : dealt l i (n + 1) = dealt l i n ++ l[(i + n) % l.length]?.toList := by
  rw [dealt_add, dealt, dealt, List.append_nil]

theorem mem_of_mem_dealt {l : List α} {i n : Nat} {a : α} (h : a ∈ dealt l i n) : a ∈ l := by
  induction n generalizing i with
  | zero => cases h
  | succ n ih =>
    rw [dealt, List.mem_append, Option.mem_toList] at h
    rcases h with h | h
    · exact List.mem_of_getElem? h
    · exact ih h

/-- Less than a round is a part of the list turned. -/
theorem dealt_eq_take {l : List α} (i : Nat) : ∀ n ≤ l.length, dealt l i n = (l.rotate i).take n
  | 0, _ => by simp [dealt]
  | n + 1, h => by rw [dealt_succ, dealt_eq_take i n (by omega), List.take_add_one, List.getElem?_rotate h, Nat.add_comm]

theorem dealt_round (l : List α) (i : Nat) : (dealt l i l.length).Perm l := by
  rw [dealt_eq_take i l.length (Nat.le_refl _), List.take_of_length_le (by simp)]
  exact List.rotate_perm l i

theorem count_dealt [DecidableEq α] {l : List α} (hl : l.Nodup) {a b : α} (hb : b ∈ l) :
    ∀ (n i : Nat), (dealt l i n).count a ≤ (dealt l i n).count b + 1 := by
  intro n
  induction n using Nat.strongRecOn with
  | ind n ih =>
    intro i
    have hpos := List.length_pos_of_mem hb
    by_cases hn : n < l.length
    · have hnodup : (dealt l i n).Nodup := by
        rw [dealt_eq_take i n (Nat.le_of_lt hn)]
        exact (List.nodup_rotate.mpr hl).sublist (List.take_sublist _ _)
      exact Nat.le_trans (List.nodup_iff_count_le_one.mp hnodup a) (Nat.le_add_left _ _)
    · -- a whole round gives everybody one
      obtain ⟨m, rfl⟩ : ∃ m, n = l.length + m := ⟨n - l.length, by omega⟩
      have ha := List.nodup_iff_count_le_one.mp hl a
      have hb := List.count_eq_one_of_mem hl hb
      rw [dealt_add, List.count_append, List.count_append, (dealt_round l i).count_eq, (dealt_round l i).count_eq, hb]
      have := ih m (by omega) (i + l.length)
      omega

end RoundRobin
