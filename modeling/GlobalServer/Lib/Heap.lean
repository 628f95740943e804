import Mathlib.Data.List.Nodup
import Mathlib.Logic.Function.Basic

/-!
# Blocks on a heap, and chains of them

A heap has blocks of contents at addresses. A new block is put at an address
that is free at the time, also one where an earlier block has been. To read,
write or free where there is no block is not defined.

A chain is a list of addresses each of which leads to the next, the last one
to nowhere.
-/

/-- From `brk` on there has never been a block. -/
structure Heap (β : Type) where
  cell : Nat → Option β
  brk : Nat
  unused : ∀ a, brk ≤ a → cell a = none

namespace Heap

variable {β : Type}

def empty : Heap β := { cell := fun _ => none, brk := 0, unused := fun _ _ => rfl }

/-- Where the next block goes: to `a` if that is free. -/
def place (h : Heap β) (a : Nat) : Nat := if (h.cell a).isNone then a else h.brk

theorem cell_place (h : Heap β) (a : Nat) : h.cell (h.place a) = none := by
  unfold place
  split
  · rename_i ha
    exact Option.isNone_iff_eq_none.mp ha
  · exact h.unused _ (Nat.le_refl _)

def put (h : Heap β) (p : Nat) (b : β) : Heap β where
  cell := Function.update h.cell p (some b)
  brk := max h.brk (p + 1)
  unused a ha := by
    rw [Function.update_of_ne (by omega), h.unused a (by omega)]

def modify (h : Heap β) (p : Nat) (f : β → β) : Option (Heap β) := (h.cell p).map fun b => h.put p (f b)

def free (h : Heap β) (p : Nat) : Option (Heap β) :=
  (h.cell p).map fun _ =>
    { cell := Function.update h.cell p none
      brk := h.brk
      unused := fun a ha => by
        rcases eq_or_ne a p with rfl | hne
        · exact Function.update_self ..
        · rw [Function.update_of_ne hne, h.unused a ha] }

variable {h h' : Heap β} {p a : Nat} {b : β} {f : β → β}

@[simp] theorem put_self : (h.put p b).cell p = some b := Function.update_self ..

theorem put_of_ne (ha : a ≠ p) : (h.put p b).cell a = h.cell a := Function.update_of_ne ha ..

theorem modify_of_cell (hp : h.cell p = some b) : h.modify p f = some (h.put p (f b)) := by
  rw [modify, hp, Option.map_some]

theorem free_of_cell (hp : h.cell p = some b) :
    ∃ h', h.free p = some h' ∧ h'.cell p = none ∧ ∀ a, a ≠ p → h'.cell a = h.cell a := by
  rw [free, hp, Option.map_some]
  exact ⟨_, rfl, Function.update_self .., fun a ha => Function.update_of_ne ha ..⟩

end Heap

/-! ## Chains -/

/-- From `p` the addresses `l` are reached one after another; `next` is where a block leads, if it is one. -/
def Chain (next : Nat → Option (Option Nat)) : Option Nat → List Nat → Prop
  | p, [] => p = none
  | p, a :: l => p = some a ∧ ∃ q, next a = some q ∧ Chain next q l

namespace Chain

variable {next next' : Nat → Option (Option Nat)} {p q : Option Nat} {a : Nat} {l l' : List Nat}

@[simp] theorem nil_iff : Chain next p [] ↔ p = none := Iff.rfl

theorem head (h : Chain next p l) : p = l.head? := by
  cases l with
  | nil => exact h
  | cons a l => exact h.1

theorem eq_nil_iff (h : Chain next p l) : l = [] ↔ p = none := by
  rw [h.head, List.head?_eq_none_iff]

theorem congr (h : Chain next p l) (hn : ∀ a ∈ l, next' a = next a) : Chain next' p l := by
  induction l generalizing p with
  | nil => exact h
  | cons a l ih =>
    obtain ⟨hp, q, hq, hl⟩ := h
    exact ⟨hp, q, by rw [hn a List.mem_cons_self, hq], ih hl fun b hb => hn b (List.mem_cons_of_mem a hb)⟩

theorem isSome (h : Chain next p l) (ha : a ∈ l) : next a ≠ none := by
  induction l generalizing p with
  | nil => cases ha
  | cons b l ih =>
    obtain ⟨-, q, hq, hl⟩ := h
    rcases List.mem_cons.mp ha with rfl | ha
    · simp [hq]
    · exact ih hl ha

theorem unique (h : Chain next p l) (h' : Chain next p l') : l = l' := by
  induction l generalizing p l' with
  | nil => exact (h'.eq_nil_iff.mpr h).symm
  | cons a l ih =>
    obtain ⟨rfl, q, hq, hl⟩ := h
    cases l' with
    | nil => cases h'
    | cons a' l' =>
      obtain ⟨hp, q', hq', hl'⟩ := h'
      cases hp
      rw [hq] at hq'
      cases hq'
      rw [ih hl hl']

theorem suffix {l₁ : List Nat} (h : Chain next p (l₁ ++ l)) : Chain next l.head? l := by
  induction l₁ generalizing p with
  | nil =>
    rw [List.nil_append] at h
    rwa [← h.head]
  | cons a l₁ ih =>
    obtain ⟨-, q, -, hl⟩ := h
    exact ih hl

theorem nodup (h : Chain next p l) : l.Nodup := by
  induction l generalizing p with
  | nil => exact List.nodup_nil
  | cons a l ih =>
    obtain ⟨hp, q, hq, hl⟩ := id h
    refine List.nodup_cons.mpr ⟨fun ha => ?_, ih hl⟩
    obtain ⟨l₁, l₂, rfl⟩ := List.append_of_mem ha
    have hback := hl.suffix
    rw [List.head?_cons, ← hp] at hback
    have hlen := congrArg List.length (h.unique hback)
    simp only [List.length_cons, List.length_append] at hlen
    omega

theorem append (h : Chain next p (l ++ [a])) (ha : next' a = some q) (hn : ∀ b ∈ l, next' b = next b)
    (h' : Chain next' q l') : Chain next' p (l ++ a :: l') := by
  induction l generalizing p with
  | nil => exact ⟨h.1, q, ha, h'⟩
  | cons b l ih =>
    obtain ⟨hp, r, hr, hl⟩ := h
    exact ⟨hp, r, by rw [hn b List.mem_cons_self, hr], ih hl fun c hc => hn c (List.mem_cons_of_mem b hc)⟩

end Chain
