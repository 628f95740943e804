import Mathlib.Data.List.Induction
import Mathlib.Data.List.Pairwise

/-!
# Maps filled by assignment

A map is a list of pairs. To assign a value to a key leaves the other keys as
they are; a map that is filled from a list holds for each key the value that
comes last. An unordered map is gone through in any order.
-/

namespace Assign

variable {κ β : Type}

/-- What a list of pairs leaves in a map is the last value of each key. `Ok` is what the map's representation keeps. -/
theorem mem_foldl {assign : κ → β → List (κ × β) → List (κ × β)} {Ok : List (κ × β) → Prop} (h0 : Ok [])
    (hok : ∀ k v l, Ok l → Ok (assign k v l))
    (hmem : ∀ k v l x, Ok l → (x ∈ assign k v l ↔ x = (k, v) ∨ x ∈ l ∧ x.1 ≠ k)) (l : List (κ × β)) :
    Ok (l.foldl (fun m x => assign x.1 x.2 m) []) ∧ ∀ x, x ∈ l.foldl (fun m x => assign x.1 x.2 m) [] ↔
      ∃ l₁ l₂, l = l₁ ++ x :: l₂ ∧ ∀ y ∈ l₂, y.1 ≠ x.1 := by
  induction l using List.reverseRecOn with
  | nil => exact ⟨h0, fun x => by simp⟩
  | append_singleton l y ih =>
    obtain ⟨ihok, ih⟩ := ih
    simp only [List.foldl_append, List.foldl_cons, List.foldl_nil]
    refine ⟨hok _ _ _ ihok, fun x => ?_⟩
    rw [hmem _ _ _ _ ihok, ih]
    constructor
    · rintro (rfl | ⟨⟨l₁, l₂, rfl, hl₂⟩, hne⟩)
      · exact ⟨l, [], rfl, by simp⟩
      · refine ⟨l₁, l₂ ++ [y], by simp, fun z hz => ?_⟩
        rcases List.mem_append.mp hz with hz | hz
        · exact hl₂ z hz
        · simp only [List.mem_singleton] at hz
          exact hz ▸ Ne.symm hne
    · rintro ⟨l₁, l₂, he, hl₂⟩
      rcases List.eq_nil_or_concat l₂ with rfl | ⟨l₃, z, rfl⟩
      · obtain ⟨-, hx⟩ := List.append_inj' he rfl
        cases hx
        exact .inl rfl
      · rw [List.concat_eq_append, ← List.cons_append, ← List.append_assoc] at he
        obtain ⟨rfl, hx⟩ := List.append_inj' he rfl
        cases hx
        exact .inr ⟨⟨l₁, l₃, rfl, fun w hw => hl₂ w (by simp [hw])⟩, Ne.symm (hl₂ y (by simp))⟩

theorem last_iff_mem {l : List (κ × β)} (h : l.Pairwise fun x y => x.1 ≠ y.1) {x : κ × β} :
    (∃ l₁ l₂, l = l₁ ++ x :: l₂ ∧ ∀ y ∈ l₂, y.1 ≠ x.1) ↔ x ∈ l := by
  constructor
  · rintro ⟨l₁, l₂, rfl, -⟩
    simp
  · intro hx
    obtain ⟨l₁, l₂, rfl⟩ := List.append_of_mem hx
    have := (List.pairwise_cons.mp (List.pairwise_append.mp h).2.1).1
    exact ⟨l₁, l₂, rfl, fun y hy => Ne.symm (this y hy)⟩

end Assign

namespace UnordMap

variable {κ β : Type} [DecidableEq κ]

def assign (k : κ) (v : β) (l : List (κ × β)) : List (κ × β) := (k, v) :: l.filter fun x => x.1 ≠ k

theorem mem_assign {k : κ} {v : β} {l : List (κ × β)} {x : κ × β} :
    x ∈ assign k v l ↔ x = (k, v) ∨ x ∈ l ∧ x.1 ≠ k := by
  simp [assign]

def ofList (l : List (κ × β)) : List (κ × β) := l.foldl (fun m x => assign x.1 x.2 m) []

theorem ofList_spec (l : List (κ × β)) : (ofList l).Pairwise (fun x y => x.1 ≠ y.1) ∧
    ∀ x, x ∈ ofList l ↔ ∃ l₁ l₂, l = l₁ ++ x :: l₂ ∧ ∀ y ∈ l₂, y.1 ≠ x.1 := by
  refine Assign.mem_foldl List.Pairwise.nil (fun k v l hl => ?_) (fun k v l x _ => mem_assign) l
  refine List.pairwise_cons.mpr ⟨fun y hy => ?_, hl.filter _⟩
  have := (List.mem_filter.mp hy).2
  simp only [decide_eq_true_eq] at this
  exact Ne.symm this

/-- An order in which to go through the pairs. -/
structure Order (α : Type) where
  order : List α → List α
  perm : ∀ l, (order l).Perm l

/-- the order of the list -/
def Order.id (α : Type) : Order α := ⟨fun l => l, fun _ => .refl _⟩

end UnordMap
