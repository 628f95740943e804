import GlobalServer.Lib.Results
import Mathlib.Data.List.Basic
import Mathlib.Tactic.Linarith

/-!
# Byte strings, fixed-width words and checked memory ranges

A word of `k` bytes is a natural number below `256 ^ k`; its two layouts are
`leBytes` and the reverse of it. Memory is a list of bytes, read and written
by offset; an access outside the block is a `Fault`.
-/

namespace Bytes

/-! ## Words -/

/-- The value of a little-endian byte string. -/
def leNat : List UInt8 → Nat
  | [] => 0
  | b :: l => b.toNat + 256 * leNat l

/-- The `k` low bytes of `n`, least significant first. -/
def leBytes : Nat → Nat → List UInt8
  | 0, _ => []
  | k + 1, n => UInt8.ofNat n :: leBytes k (n / 256)

/-- Byte-order conversion of a `k`-byte word. -/
def swap (k n : Nat) : Nat := leNat (leBytes k n).reverse

@[simp] theorem length_leBytes : ∀ k n, (leBytes k n).length = k
  | 0, _ => rfl
  | k + 1, n => by rw [leBytes, List.length_cons, length_leBytes k]

theorem leNat_leBytes : ∀ k n, n < 256 ^ k → leNat (leBytes k n) = n
  | 0, n, h => by
    rw [Nat.pow_zero] at h
    rw [leBytes, leNat]; omega
  | k + 1, n, h => by
    rw [Nat.pow_succ] at h
    have hk : n / 256 < 256 ^ k := by omega
    rw [leBytes, leNat, leNat_leBytes k _ hk, UInt8.toNat_ofNat']
    omega

theorem leBytes_leNat : ∀ l : List UInt8, leBytes l.length (leNat l) = l
  | [] => rfl
  | b :: l => by
    have hb : b.toNat < 256 := b.toNat_lt
    have hd : (b.toNat + 256 * leNat l) / 256 = leNat l := by omega
    rw [List.length_cons, leBytes, leNat, hd, leBytes_leNat l]
    congr 1
    apply UInt8.toNat_inj.mp
    rw [UInt8.toNat_ofNat']; omega

theorem leNat_lt : ∀ l : List UInt8, leNat l < 256 ^ l.length
  | [] => by simp [leNat]
  | b :: l => by
    have hb : b.toNat < 256 := b.toNat_lt
    have hl := leNat_lt l
    rw [List.length_cons, Nat.pow_succ, leNat]; omega

theorem leBytes_swap (k n : Nat) : leBytes k (swap k n) = (leBytes k n).reverse := by
  have h := leBytes_leNat (leBytes k n).reverse
  rwa [List.length_reverse, length_leBytes] at h

theorem swap_lt (k n : Nat) : swap k n < 256 ^ k := by
  have h := leNat_lt (leBytes k n).reverse
  rwa [List.length_reverse, length_leBytes] at h

theorem swap_swap (k n : Nat) (h : n < 256 ^ k) : swap k (swap k n) = n := by
  rw [swap, leBytes_swap, List.reverse_reverse, leNat_leBytes k n h]

/-! ## Machine arithmetic -/

/-- A 32-bit unsigned result. -/
def u32 (n : Nat) : Nat := n % 2 ^ 32

theorem u32_lt (n : Nat) : u32 n < 2 ^ 32 := Nat.mod_lt _ (by decide)

theorem u32_of_lt {n : Nat} (h : n < 2 ^ 32) : u32 n = n := Nat.mod_eq_of_lt h

/-- 32-bit unsigned subtraction, `a` and `b` below `2 ^ 32`. -/
def sub32 (a b : Nat) : Nat := (a + (2 ^ 32 - b)) % 2 ^ 32

theorem sub32_of_le {a b : Nat} (ha : a < 2 ^ 32) (h : b ≤ a) : sub32 a b = a - b := by
  unfold sub32; omega

/-- Conversion to a 32-bit signed integer. -/
def i32 (n : Int) : Int := (n + 2 ^ 31) % 2 ^ 32 - 2 ^ 31

theorem i32_lt (n : Int) : i32 n < 2 ^ 31 := by
  unfold i32; omega

theorem i32_of_range {n : Int} (h1 : -2 ^ 31 ≤ n) (h2 : n < 2 ^ 31) : i32 n = n := by
  unfold i32; omega

/-- A 64-bit unsigned result. -/
def u64 (n : Nat) : Nat := n % 2 ^ 64

theorem u64_of_lt {n : Nat} (h : n < 2 ^ 64) : u64 n = n := Nat.mod_eq_of_lt h

def sub64 (a b : Nat) : Nat := (a + (2 ^ 64 - b)) % 2 ^ 64

theorem sub64_of_le {a b : Nat} (ha : a < 2 ^ 64) (h : b ≤ a) : sub64 a b = a - b := by
  unfold sub64; omega

/-! ## Memory blocks -/

/-- What an access can run into that the language leaves undefined. -/
inductive Fault where
  | outOfBounds
  | useAfterFree
  deriving DecidableEq, Repr

/-- `len` bytes of the block from offset `off`. -/
def read (m : List UInt8) (off len : Nat) : Except Fault (List UInt8) :=
  if off + len ≤ m.length then .ok ((m.drop off).take len) else .error .outOfBounds

/-- Overwrite the block from offset `off`. -/
def write (m : List UInt8) (off : Nat) (bs : List UInt8) : List UInt8 :=
  m.take off ++ (bs ++ m.drop (off + bs.length))

theorem read_eq_ok {m bs : List UInt8} {off len : Nat} (h : read m off len = .ok bs) :
    off + len ≤ m.length ∧ bs = (m.drop off).take len ∧ bs.length = len := by
  unfold read at h
  split at h
  · rename_i hl
    cases h
    exact ⟨hl, rfl, by rw [List.length_take, List.length_drop]; omega⟩
  · cases h

theorem read_of_le {m : List UInt8} {off len : Nat} (h : off + len ≤ m.length) :
    read m off len = .ok ((m.drop off).take len) := if_pos h

theorem read_self (m : List UInt8) : read m 0 m.length = .ok m := by
  rw [read_of_le (by omega), List.drop_zero, List.take_length]

theorem read_append_left {m a b : List UInt8} {off : Nat} (h : read m off (a ++ b).length = .ok (a ++ b)) :
    read m off a.length = .ok a := by
  obtain ⟨hl, he, -⟩ := read_eq_ok h
  rw [List.length_append] at hl he
  rw [read_of_le (by omega)]
  congr 1
  have := congrArg (List.take a.length) he
  rw [List.take_left' rfl, List.take_take, Nat.min_eq_left (Nat.le_add_right _ _)] at this
  exact this.symm

theorem read_append_right {m a b : List UInt8} {off : Nat} (h : read m off (a ++ b).length = .ok (a ++ b)) :
    read m (off + a.length) b.length = .ok b := by
  obtain ⟨hl, he, -⟩ := read_eq_ok h
  rw [List.length_append] at hl he
  rw [read_of_le (by omega)]
  congr 1
  have := congrArg (List.drop a.length) he
  rw [List.drop_left' rfl, List.drop_take, List.drop_drop, Nat.add_sub_cancel_left] at this
  exact this.symm

theorem length_write {m bs : List UInt8} {off : Nat} (h : off + bs.length ≤ m.length) :
    (write m off bs).length = m.length := by
  simp only [write, List.length_append, List.length_take, List.length_drop]; omega

theorem take_write {m bs : List UInt8} {off : Nat} (h : off ≤ m.length) :
    (write m off bs).take (off + bs.length) = m.take off ++ bs := by
  have hl : (m.take off ++ bs).length = off + bs.length := by
    rw [List.length_append, List.length_take, Nat.min_eq_left h]
  rw [write, ← List.append_assoc, ← hl, List.take_left']
  rfl

theorem drop_write {m bs : List UInt8} {off k : Nat} (h : off ≤ m.length) (hk : off + bs.length ≤ k) :
    (write m off bs).drop k = m.drop k := by
  have h1 : (m.take off).length = off := by rw [List.length_take]; omega
  rw [write, List.drop_append, h1, List.drop_eq_nil_of_le (by omega), List.nil_append, List.drop_append,
    List.drop_eq_nil_of_le (by omega), List.nil_append, List.drop_drop]
  congr 1; omega

theorem read_write {m bs : List UInt8} {off k n : Nat} (h : off + bs.length ≤ m.length) (hk : off + bs.length ≤ k) :
    read (write m off bs) k n = read m k n := by
  unfold read
  rw [length_write h, drop_write (by omega) hk]

theorem read_write_front {m bs : List UInt8} (h : bs.length ≤ m.length) :
    read (write m 0 bs) 0 bs.length = .ok bs := by
  rw [read_of_le (by rw [length_write] <;> omega), List.drop_zero, write, List.take_zero, List.nil_append,
    List.take_left' rfl]

theorem write_front {m n bs : List UInt8} (h : bs.length = m.length) : write (m ++ n) 0 bs = bs ++ n := by
  rw [write, List.take_zero, List.nil_append, Nat.zero_add, h, List.drop_left' rfl]

theorem write_self {m bs : List UInt8} {off : Nat} (hb : (m.drop off).take bs.length = bs) :
    write m off bs = m := by
  have e : bs ++ m.drop (off + bs.length) = m.drop off := by
    rw [← List.drop_drop]
    conv => lhs; lhs; rw [← hb]
    exact List.take_append_drop bs.length (m.drop off)
  rw [write, e, List.take_append_drop]

theorem write_write {m bs cs : List UInt8} {off : Nat} (h : off ≤ m.length) (hl : bs.length = cs.length) :
    write (write m off bs) off cs = write m off cs := by
  have h1 : (m.take off).length = off := by rw [List.length_take]; omega
  have e1 : (write m off bs).take off = m.take off := by
    rw [write, List.take_append_of_le_length (by omega), List.take_of_length_le (by omega)]
  have e2 : (write m off bs).drop (off + cs.length) = m.drop (off + cs.length) := drop_write h (by omega)
  rw [write, e1, e2, ← write]

end Bytes
