import Mathlib.Data.List.Basic
import Mathlib.Data.List.Induction
import Mathlib.Data.List.Nodup

/-!
# Resources that are released once

A log of what is done with resources that someone must release. It is in order
if no resource is stored twice, none is released that is not held, and none is
read after its release. `Holds` is the invariant by which this is shown: what
is held at the end of the log is known as a list, whose order does not matter.
-/

namespace Ledger

/-- What is done with a resource. -/
inductive Op (ρ : Type) where
  | store (r : ρ)
  | read (r : ρ)
  | free (r : ρ)
  deriving DecidableEq

variable {ρ : Type}

/-- What must be so before the operation, of which `t` are the earlier ones. -/
def Op.Allowed (t : List (Op ρ)) : Op ρ → Prop
  | .store r => .store r ∉ t
  | .read r => .store r ∈ t ∧ .free r ∉ t
  | .free r => .store r ∈ t ∧ .free r ∉ t

def InOrder (t : List (Op ρ)) : Prop := ∀ t₁ o t₂, t = t₁ ++ o :: t₂ → o.Allowed t₁

/-- The log is in order and leaves the resources `l` held. -/
inductive Holds : List (Op ρ) → List ρ → Prop
  | nil : Holds [] []
  | store {t : List (Op ρ)} {l : List ρ} {r : ρ} (h : Holds t l) (hr : .store r ∉ t) : Holds (t ++ [.store r]) (r :: l)
  | read {t : List (Op ρ)} {l : List ρ} {r : ρ} (h : Holds t l) (hr : r ∈ l) : Holds (t ++ [.read r]) l
  | free {t : List (Op ρ)} {l : List ρ} {r : ρ} (h : Holds t (r :: l)) : Holds (t ++ [.free r]) l
  | perm {t : List (Op ρ)} {l l' : List ρ} (h : Holds t l) (hp : l.Perm l') : Holds t l'

/-- A resource is held that is stored and not released, and it is held once; none is released that was not stored. -/
theorem Holds.held {t : List (Op ρ)} {l : List ρ} (h : Holds t l) :
    l.Nodup ∧ (∀ r, r ∈ l ↔ .store r ∈ t ∧ .free r ∉ t) ∧ ∀ r, .free r ∈ t → .store r ∈ t := by
  induction h with
  | nil => simp
  | @store t l r h hr ih =>
    obtain ⟨hd, hm, hf⟩ := ih
    have hl : r ∉ l := fun hl => hr ((hm r).mp hl).1
    refine ⟨List.nodup_cons.mpr ⟨hl, hd⟩, fun x => ?_, by simpa using fun x hx => Or.inl (hf x hx)⟩
    have hx := hm x
    by_cases he : x = r
    · subst he
      simpa using fun hfree => hr (hf x hfree)
    · simpa [he] using hx
  | read h hr ih => simpa using ih
  | @free t l r h ih =>
    obtain ⟨hd, hm, hf⟩ := ih
    obtain ⟨hl, hd⟩ := List.nodup_cons.mp hd
    refine ⟨hd, fun x => ?_, ?_⟩
    · have hx := hm x
      by_cases he : x = r
      · subst he
        simp [hl]
      · simpa [he] using hx
    · intro x hx
      simp only [List.mem_append, List.mem_singleton, Op.free.injEq, reduceCtorEq, or_false] at hx ⊢
      rcases hx with hx | rfl
      · exact hf x hx
      · exact ((hm x).mp List.mem_cons_self).1
  | perm h hp ih => exact ⟨hp.nodup_iff.mp ih.1, fun r => by rw [← hp.mem_iff]; exact ih.2.1 r, ih.2.2⟩

theorem Holds.mem_iff {t : List (Op ρ)} {l : List ρ} (h : Holds t l) {r : ρ} : r ∈ l ↔ .store r ∈ t ∧ .free r ∉ t :=
  h.held.2.1 r

theorem inOrder_concat {t : List (Op ρ)} {o : Op ρ} (h : InOrder t) (ho : o.Allowed t) : InOrder (t ++ [o]) := by
  intro t₁ o' t₂ he
  rcases List.eq_nil_or_concat t₂ with rfl | ⟨t₂', o'', rfl⟩
  · obtain ⟨rfl, hoo⟩ := List.append_inj' he rfl
    cases hoo
    exact ho
  · rw [List.concat_eq_append, ← List.cons_append, ← List.append_assoc] at he
    obtain ⟨he, -⟩ := List.append_inj' he rfl
    exact h t₁ o' t₂' he

theorem Holds.inOrder {t : List (Op ρ)} {l : List ρ} (h : Holds t l) : InOrder t := by
  induction h with
  | nil => intro t₁ o t₂ he; simp at he
  | store h hr ih => exact inOrder_concat ih hr
  | read h hr ih => exact inOrder_concat ih (h.mem_iff.mp hr)
  | free h ih => exact inOrder_concat ih (h.mem_iff.mp List.mem_cons_self)
  | perm h hp ih => exact ih

theorem Holds.kept {t : List (Op ρ)} {l : List ρ} (h : Holds t l) {r : ρ} (hr : .store r ∈ t) : .free r ∈ t ∨ r ∈ l := by
  by_cases hf : .free r ∈ t
  · exact Or.inl hf
  · exact Or.inr (h.mem_iff.mpr ⟨hr, hf⟩)

end Ledger
