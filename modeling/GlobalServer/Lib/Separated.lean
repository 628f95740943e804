import Mathlib.Data.List.TakeWhile

/-!
# Components and a separator

What is joined by a separator is taken apart again exactly when no component
has the separator in it. A word is what is read up to the next space, of which
there are several kinds.
-/

namespace Separated

open List

variable {α : Type} [BEq α] [LawfulBEq α] {x : α}

theorem not_mem_of_mem_splitOn : ∀ {xs l : List α}, l ∈ xs.splitOn x → x ∉ l
  | [], l, h => by
    rw [splitOn_nil, mem_singleton] at h
    rw [h]
    exact not_mem_nil
  | y :: xs, l, h => by
    rw [splitOn_cons_eq_if_modifyHead] at h
    split at h
    · rcases mem_cons.mp h with rfl | h
      · exact not_mem_nil
      · exact not_mem_of_mem_splitOn h
    · rename_i hy
      obtain ⟨l₀, ls, hs⟩ := exists_cons_of_ne_nil (splitOn_ne_nil x xs)
      rw [hs, modifyHead_cons] at h
      rcases mem_cons.mp h with rfl | h
      · rw [mem_cons]
        rintro (rfl | hx)
        · exact hy (BEq.refl x)
        · exact not_mem_of_mem_splitOn (hs ▸ mem_cons_self) hx
      · exact not_mem_of_mem_splitOn (hs ▸ mem_cons_of_mem l₀ h)

theorem splitOn_intercalate_iff {ls : List (List α)} (h : ls ≠ []) :
    ([x].intercalate ls).splitOn x = ls ↔ ∀ l ∈ ls, x ∉ l := by
  constructor
  · intro he l hl
    rw [← he] at hl
    exact not_mem_of_mem_splitOn hl
  · intro hx
    exact splitOn_intercalate x hx h

theorem splitOn_intercalate_eq : ∀ {ls : List (List α)}, ls ≠ [] →
    ([x].intercalate ls).splitOn x = ls.flatMap (List.splitOn x)
  | [], h => absurd rfl h
  | [l], _ => by simp
  | l :: l' :: ls, _ => by
    rw [intercalate_cons_cons, append_assoc, singleton_append, splitOn_append_cons_self,
      splitOn_intercalate_eq (cons_ne_nil l' ls)]
    exact flatMap_cons.symm

theorem not_mem_of_length {ls : List (List α)} (hne : ls ≠ [])
    (h : (([x].intercalate ls).splitOn x).length ≤ ls.length) : ∀ l ∈ ls, x ∉ l := by
  have hpos : ∀ l : List α, 1 ≤ (l.splitOn x).length := fun l => length_pos_iff.mpr (splitOn_ne_nil x l)
  have hone : ∀ l : List α, (l.splitOn x).length ≤ 1 → x ∉ l := by
    intro l hl hx
    obtain ⟨s, t, rfl⟩ := append_of_mem hx
    rw [splitOn_append_cons_self, length_append] at hl
    have := hpos s
    have := hpos t
    omega
  rw [splitOn_intercalate_eq hne] at h
  have hle : ∀ ls : List (List α), ls.length ≤ (ls.flatMap (List.splitOn x)).length := by
    intro ls
    induction ls with
    | nil => exact Nat.le_refl 0
    | cons l ls ih =>
      rw [flatMap_cons, length_append, length_cons]
      have := hpos l
      omega
  clear hne
  induction ls with
  | nil => exact fun _ hl => absurd hl not_mem_nil
  | cons l ls ih =>
    rw [flatMap_cons, length_append, length_cons] at h
    have h1 := hpos l
    have h2 := hle ls
    rw [forall_mem_cons]
    exact ⟨hone l (by omega), ih (by omega)⟩

omit [BEq α] [LawfulBEq α] in
theorem intercalate_concat_append (l m : List α) : ∀ ls : List (List α),
    [x].intercalate (ls ++ [l]) ++ m = [x].intercalate (ls ++ [l ++ m])
  | [] => by simp
  | l' :: ls => by
    rw [cons_append, cons_append, intercalate_cons_of_ne_nil (by simp), intercalate_cons_of_ne_nil (by simp),
      append_assoc, intercalate_concat_append l m ls]

/-! ## Words -/

section
variable {α : Type}

/-- The first word of a text. -/
def firstWord (space : α → Bool) (l : List α) : List α := (l.dropWhile space).takeWhile fun x => !space x

variable {space : α → Bool} {l : List α}

theorem length_firstWord_le : (firstWord space l).length ≤ l.length := by
  have htake : firstWord space l <+: l.dropWhile space := takeWhile_prefix _
  exact Nat.le_trans htake.length_le (dropWhile_suffix _).length_le

theorem firstWord_eq_self_iff : firstWord space l = l ↔ ∀ x ∈ l, space x = false := by
  unfold firstWord
  constructor
  · intro h x hx
    rw [← h] at hx
    simpa using mem_takeWhile_imp hx
  · intro h
    have hd : l.dropWhile space = l := by
      cases l with
      | nil => rfl
      | cons x l => rw [dropWhile_cons_of_neg (by simp [h x])]
    rw [hd]
    exact takeWhile_eq_self_iff.mpr (by simpa using h)

end

end Separated
