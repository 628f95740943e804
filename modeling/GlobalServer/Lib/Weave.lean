import Mathlib.Data.List.Sublists
import Mathlib.Data.List.Nodup

/-!
# One list woven into another

A list of old entries is matched, from the left, against a list of new ones.
What comes out is the list of the new entries with the old ones behind it that
found no partner; it has no duplicates exactly when the old entries stand in
the new list in their order.
-/

namespace Weave

variable {α : Type} [DecidableEq α]

def merge : List α → List α → List α
  | [], new => new
  | old, [] => old
  | o :: old, n :: new => n :: (if n = o then merge old new else merge (o :: old) new)

/-- The old entries without a partner. -/
def left : List α → List α → List α
  | [], _ => []
  | old, [] => old
  | o :: old, n :: new => if n = o then left old new else left (o :: old) new

theorem merge_eq : ∀ old new : List α, merge old new = new ++ left old new
  | [], new => by simp [merge, left]
  | o :: old, [] => by simp [merge, left]
  | o :: old, n :: new => by
    unfold merge left
    split
    · rw [merge_eq old new, List.cons_append]
    · rw [merge_eq (o :: old) new, List.cons_append]

theorem left_subset : ∀ old new : List α, ∀ x ∈ left old new, x ∈ old
  | [], _, x, h => by simp [left] at h
  | o :: old, [], x, h => by simpa [left] using h
  | o :: old, n :: new, x, h => by
    unfold left at h
    split at h
    · exact List.mem_cons_of_mem o (left_subset old new x h)
    · exact left_subset (o :: old) new x h

theorem left_eq_nil_iff : ∀ old new : List α, left old new = [] ↔ old.Sublist new
  | [], new => by simp [left]
  | o :: old, [] => by simp [left]
  | o :: old, n :: new => by
    unfold left
    split
    · rename_i h
      rw [h, left_eq_nil_iff old new, List.cons_sublist_cons]
    · rename_i h
      rw [left_eq_nil_iff (o :: old) new]
      refine ⟨fun hs => hs.cons n, fun hs => ?_⟩
      cases hs with
      | cons _ hs => exact hs
      | cons_cons _ hs => exact absurd rfl h

theorem merge_of_sublist {old new : List α} (h : old.Sublist new) : merge old new = new := by
  rw [merge_eq, (left_eq_nil_iff old new).mpr h, List.append_nil]

theorem nodup_merge_iff {old new : List α} (hn : new.Nodup) (hs : ∀ x ∈ old, x ∈ new) :
    (merge old new).Nodup ↔ old.Sublist new := by
  rw [merge_eq]
  refine ⟨fun h => ?_, fun h => ?_⟩
  · apply (left_eq_nil_iff old new).mp
    by_contra hl
    obtain ⟨x, hx⟩ := List.exists_mem_of_ne_nil _ hl
    exact (List.nodup_append.mp h).2.2 x (hs x (left_subset old new x hx)) x hx rfl
  · rw [(left_eq_nil_iff old new).mpr h, List.append_nil]
    exact hn

end Weave
