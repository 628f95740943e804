import Mathlib.Data.List.Induction
import Mathlib.Logic.Function.Basic

/-!
# Tables whose keys are used again

A value enters a table under its key, if that is free, and leaves by the key
alone. If no value enters before all earlier ones of its key have left, the
table holds exactly the values that have entered and not left, and what leaves
is what was meant.
-/

namespace KeyTable

variable {κ α : Type}

inductive Op (α : Type) where
  | enter (a : α)
  | leave (a : α)
  deriving DecidableEq

section
variable [DecidableEq κ]

def insert (key : α → κ) (t : κ → Option α) (a : α) : κ → Option α :=
  match t (key a) with
  | none => Function.update t (key a) (some a)
  | some _ => t

def erase (t : κ → Option α) (k : κ) : κ → Option α := Function.update t k none

def Op.apply (key : α → κ) (t : κ → Option α) : Op α → κ → Option α
  | .enter a => insert key t a
  | .leave a => erase t (key a)

def after (key : α → κ) (ops : List (Op α)) : κ → Option α := ops.foldl (Op.apply key) fun _ => none

end

/-- Every value enters once, after all of its key before it have left, and leaves once, after it has entered. -/
inductive Orderly (key : α → κ) : List (Op α) → Prop
  | nil : Orderly key []
  | enter {ops : List (Op α)} {a : α} : Orderly key ops → .enter a ∉ ops →
      (∀ b, key b = key a → .enter b ∈ ops → .leave b ∈ ops) → Orderly key (ops ++ [.enter a])
  | leave {ops : List (Op α)} {a : α} : Orderly key ops → .enter a ∈ ops → .leave a ∉ ops →
      Orderly key (ops ++ [.leave a])

variable {key : α → κ} {ops ops' : List (Op α)} {a : α}

theorem after_append [DecidableEq κ] (ops : List (Op α)) (op : Op α) :
    after key (ops ++ [op]) = op.apply key (after key ops) := by
  simp [after]

namespace Orderly

theorem of_append (h : Orderly key (ops ++ ops')) : Orderly key ops := by
  induction ops' using List.reverseRecOn with
  | nil => simpa using h
  | append_singleton ops' op ih =>
    rw [← List.append_assoc] at h
    apply ih
    generalize hl : (ops ++ ops') ++ [op] = l at h
    cases h with
    | nil => simp at hl
    | enter h => exact (List.append_inj' hl rfl).1 ▸ h
    | leave h => exact (List.append_inj' hl rfl).1 ▸ h

theorem leave_inv (h : Orderly key (ops ++ [.leave a])) : .enter a ∈ ops ∧ .leave a ∉ ops := by
  generalize hl : ops ++ [Op.leave a] = l at h
  cases h with
  | nil => simp at hl
  | enter =>
    obtain ⟨-, he⟩ := List.append_inj' hl rfl
    simp at he
  | leave _ h₁ h₂ =>
    obtain ⟨rfl, he⟩ := List.append_inj' hl rfl
    simp only [List.cons.injEq, Op.leave.injEq, and_true] at he
    exact he ▸ ⟨h₁, h₂⟩

theorem enter_mem (h : Orderly key ops) : .leave a ∈ ops → .enter a ∈ ops := by
  induction h with
  | nil => simp
  | enter _ _ _ ih =>
    intro ha
    simp only [List.mem_append, List.mem_singleton, reduceCtorEq, or_false] at ha
    exact List.mem_append_left _ (ih ha)
  | leave _ he _ ih =>
    intro ha
    simp only [List.mem_append, List.mem_singleton, Op.leave.injEq] at ha
    rcases ha with ha | rfl
    · exact List.mem_append_left _ (ih ha)
    · exact List.mem_append_left _ he

variable [DecidableEq κ]

/-- The entries of the table are the values that have entered and not left. -/
theorem after_eq_some_iff (h : Orderly key ops) {k : κ} :
    after key ops k = some a ↔ key a = k ∧ .enter a ∈ ops ∧ .leave a ∉ ops := by
  induction h generalizing a k with
  | nil => simp [after]
  | @enter ops b h hb hfree ih =>
    have hnone : after key ops (key b) = none := by
      rw [Option.eq_none_iff_forall_ne_some]
      intro c hc
      obtain ⟨hk, he, hl⟩ := ih.mp hc
      exact hl (hfree c hk he)
    have happly : after key (ops ++ [.enter b]) = Function.update (after key ops) (key b) (some b) := by
      rw [after_append]
      simp only [Op.apply, insert, hnone]
    rw [happly]
    simp only [List.mem_append, List.mem_singleton, Op.enter.injEq, reduceCtorEq, or_false]
    by_cases hk : k = key b
    · subst hk
      simp only [Function.update_self, Option.some.injEq]
      constructor
      · rintro rfl
        exact ⟨rfl, .inr rfl, fun hl => hb (h.enter_mem hl)⟩
      · rintro ⟨hk, he | rfl, hl⟩
        · exact absurd (hfree a hk he) hl
        · rfl
    · rw [Function.update_of_ne hk, ih]
      refine and_congr_right fun hka => and_congr_left fun _ => (or_iff_left ?_).symm
      rintro rfl
      exact hk hka.symm
  | @leave ops b h he hl ih =>
    have hself : after key ops (key b) = some b := ih.mpr ⟨rfl, he, hl⟩
    have happly : after key (ops ++ [.leave b]) = Function.update (after key ops) (key b) none := by
      rw [after_append]
      rfl
    rw [happly]
    simp only [List.mem_append, List.mem_singleton, Op.leave.injEq, reduceCtorEq, or_false, not_or]
    by_cases hk : k = key b
    · subst hk
      simp only [Function.update_self, reduceCtorEq, false_iff]
      rintro ⟨hka, hea, hla, hne⟩
      have ha : after key ops (key b) = some a := ih.mpr ⟨hka, hea, hla⟩
      rw [hself] at ha
      exact hne (Option.some.inj ha).symm
    · rw [Function.update_of_ne hk, ih]
      refine and_congr_right fun hka => and_congr_right fun _ => (and_iff_left ?_).symm
      rintro rfl
      exact hk hka.symm

theorem leaves_own (h : Orderly key (ops ++ [.leave a])) : after key ops (key a) = some a :=
  h.of_append.after_eq_some_iff.mpr ⟨rfl, h.leave_inv⟩

end Orderly

end KeyTable
