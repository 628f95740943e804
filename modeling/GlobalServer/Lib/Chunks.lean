import Mathlib.Data.List.Basic

/-!
# A stream that comes in chunks

The end of a chunk means nothing: what counts is the stream, and a cursor says
how far it has been taken and in which chunk that place lies.
-/

namespace Chunks

structure Cursor (α : Type) where
  chunk : List α
  /-- so many elements of `chunk` lie behind the cursor -/
  used : Nat
  later : List (List α)

namespace Cursor

variable {α : Type}

/-- What lies ahead in the present chunk. -/
def here (c : Cursor α) : List α := c.chunk.drop c.used

/-- What lies ahead in all. -/
def rest (c : Cursor α) : List α := c.here ++ c.later.flatten

/-- The place `m` elements into the chunks to come. -/
def enter : List (List α) → Nat → Cursor α
  | [], _ => { chunk := [], used := 0, later := [] }
  | y :: ys, m => if m ≤ y.length then { chunk := y, used := m, later := ys } else enter ys (m - y.length)

/-- The place `m` elements on; one at the end of a chunk is in that chunk. -/
def adv (c : Cursor α) (m : Nat) : Cursor α :=
  if m ≤ c.here.length then { c with used := c.used + m } else enter c.later (m - c.here.length)

/-- Ahead of all of the chunks. -/
def start (ys : List (List α)) : Cursor α := { chunk := [], used := 0, later := ys }

theorem rest_enter (ys : List (List α)) (m : Nat) (h : m ≤ ys.flatten.length) :
    (enter ys m).rest = ys.flatten.drop m := by
  induction ys generalizing m with
  | nil => simp [enter, rest, here]
  | cons y ys ih =>
    rw [List.flatten_cons, List.length_append] at h
    simp only [enter]
    split
    · rename_i hm
      rw [List.flatten_cons, List.drop_append_of_le_length hm]
      rfl
    · rename_i hm
      have hd : y.drop m = [] := List.drop_eq_nil_of_le (by omega)
      rw [ih (m - y.length) (by omega), List.flatten_cons, List.drop_append, hd, List.nil_append]

theorem rest_adv (c : Cursor α) (m : Nat) (h : m ≤ c.rest.length) : (c.adv m).rest = c.rest.drop m := by
  rw [rest, List.length_append] at h
  unfold adv
  split
  · rename_i hm
    rw [rest, rest, List.drop_append_of_le_length hm, here, here, List.drop_drop]
  · rename_i hm
    have hd : c.here.drop m = [] := List.drop_eq_nil_of_le (by omega)
    rw [rest_enter _ _ (by omega), rest, List.drop_append, hd, List.nil_append]

end Cursor

end Chunks
