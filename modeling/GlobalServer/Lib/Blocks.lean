import Mathlib.Data.List.Basic

/-!
# A stream taken in blocks

`absorb f n s xs` gives `f` the blocks of `n` that `xs` is made of, one after the
other, and keeps what is left behind the last whole block. Where the stream is
cut into pieces makes no difference to it.
-/

namespace Blocks

variable {σ β : Type}

def absorb (f : σ → List β → σ) (n : Nat) (s : σ) (xs : List β) : σ × List β :=
  if 0 < n ∧ n ≤ xs.length then absorb f n (f s (xs.take n)) (xs.drop n) else (s, xs)
termination_by xs.length
decreasing_by rw [List.length_drop]; omega

variable {f : σ → List β → σ} {n : Nat}

theorem absorb_short {s : σ} {xs : List β} (h : xs.length < n) : absorb f n s xs = (s, xs) := by
  rw [absorb, if_neg (by omega)]

theorem absorb_step (hn : 0 < n) {s : σ} {xs : List β} (h : n ≤ xs.length) :
    absorb f n s xs = absorb f n (f s (xs.take n)) (xs.drop n) := by
  rw [absorb, if_pos ⟨hn, h⟩]

theorem absorb_cons_block (hn : 0 < n) {s : σ} {b xs : List β} (h : b.length = n) :
    absorb f n s (b ++ xs) = absorb f n (f s b) xs := by
  rw [absorb_step hn (by rw [List.length_append]; omega), ← h, List.take_left' rfl, List.drop_left' rfl]

theorem absorb_append (hn : 0 < n) (s : σ) (xs ys : List β) :
    absorb f n s (xs ++ ys) = absorb f n (absorb f n s xs).1 ((absorb f n s xs).2 ++ ys) := by
  fun_induction absorb f n s xs with
  | case1 s xs h ih =>
    rw [absorb_step hn (by rw [List.length_append]; omega), List.take_append_of_le_length h.2,
      List.drop_append_of_le_length h.2, ih]
  | case2 => rfl

theorem length_absorb (hn : 0 < n) (s : σ) (xs : List β) : (absorb f n s xs).2.length = xs.length % n := by
  fun_induction absorb f n s xs with
  | case1 s xs h ih => rw [ih, List.length_drop, ← Nat.mod_eq_sub_mod h.2]
  | case2 s xs h =>
    have hlt : xs.length < n := by omega
    exact (Nat.mod_eq_of_lt hlt).symm

end Blocks
