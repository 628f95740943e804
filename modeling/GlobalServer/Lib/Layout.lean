import GlobalServer.Lib.Bytes

/-!
# Packed records

A packed record is a list of little-endian words of given widths. `unpack`
reads the words at the front of some memory, `pack` is their bytes.
-/

namespace Bytes

def unpack : List Nat → List UInt8 → List Nat
  | [], _ => []
  | k :: ks, l => leNat (l.take k) :: unpack ks (l.drop k)

def pack : List Nat → List Nat → List UInt8
  | k :: ks, n :: ns => leBytes k n ++ pack ks ns
  | _, _ => []

/-- Each word fits its width. -/
def Fits : List Nat → List Nat → Prop
  | [], [] => True
  | k :: ks, n :: ns => n < 256 ^ k ∧ Fits ks ns
  | _, _ => False

theorem length_pack : ∀ {ks ns : List Nat}, Fits ks ns → (pack ks ns).length = ks.sum
  | [], [], _ => rfl
  | k :: ks, n :: ns, h => by simp [pack, length_pack h.2]

/-- The words come back, whatever lies behind the record. -/
theorem unpack_pack : ∀ {ks ns : List Nat}, Fits ks ns → ∀ l, unpack ks (pack ks ns ++ l) = ns
  | [], [], _, l => rfl
  | k :: ks, n :: ns, h, l => by
    have ht : (leBytes k n ++ (pack ks ns ++ l)).take k = leBytes k n := List.take_left' (length_leBytes k n)
    have hd : (leBytes k n ++ (pack ks ns ++ l)).drop k = pack ks ns ++ l := List.drop_left' (length_leBytes k n)
    rw [pack, unpack, List.append_assoc, ht, hd, leNat_leBytes k n h.1, unpack_pack h.2]

theorem fits_unpack : ∀ {ks : List Nat} {l : List UInt8}, ks.sum ≤ l.length → Fits ks (unpack ks l)
  | [], _, _ => trivial
  | k :: ks, l, h => by
    rw [List.sum_cons] at h
    have hl : (l.take k).length = k := List.length_take_of_le (by omega)
    have hn := leNat_lt (l.take k)
    rw [hl] at hn
    exact ⟨hn, fits_unpack (by rw [List.length_drop]; omega)⟩

theorem pack_unpack : ∀ {ks : List Nat} {l : List UInt8}, ks.sum ≤ l.length → pack ks (unpack ks l) = l.take ks.sum
  | [], l, _ => by simp [pack]
  | k :: ks, l, h => by
    rw [List.sum_cons] at h
    have hl : (l.take k).length = k := List.length_take_of_le (by omega)
    have hb := leBytes_leNat (l.take k)
    rw [hl] at hb
    rw [unpack, pack, hb, pack_unpack (by rw [List.length_drop]; omega), List.sum_cons, List.take_add]

/-! ## Big-endian words -/

/-- The `k` low bytes of `n`, most significant first. -/
def beBytes : Nat → Nat → List UInt8
  | 0, _ => []
  | k + 1, n => UInt8.ofNat (n / 256 ^ k) :: beBytes k n

/-- The bytes of a record whose words are big-endian. -/
def packBe : List Nat → List Nat → List UInt8
  | k :: ks, n :: ns => beBytes k n ++ packBe ks ns
  | _, _ => []

theorem beBytes_succ : ∀ k n, beBytes (k + 1) n = beBytes k (n / 256) ++ [UInt8.ofNat n]
  | 0, n => by simp [beBytes]
  | k + 1, n => by
    have hd : n / 256 / 256 ^ k = n / 256 ^ (k + 1) := by rw [Nat.div_div_eq_div_mul, Nat.pow_succ, Nat.mul_comm]
    rw [beBytes, beBytes_succ k n, beBytes, hd]
    rfl

theorem beBytes_eq : ∀ k n, beBytes k n = (leBytes k n).reverse
  | 0, _ => rfl
  | k + 1, n => by rw [beBytes_succ, beBytes_eq k, leBytes, List.reverse_cons]

theorem leBytes_add : ∀ a b n, leBytes (a + b) n = leBytes a n ++ leBytes b (n / 256 ^ a)
  | 0, b, n => by simp [leBytes]
  | a + 1, b, n => by
    rw [Nat.add_right_comm, leBytes, leBytes_add a b, leBytes, List.cons_append, Nat.div_div_eq_div_mul, Nat.pow_succ,
      Nat.mul_comm 256]

theorem leBytes_mod (k n : Nat) : leBytes k (n % 256 ^ k) = leBytes k n := by
  induction k generalizing n with
  | zero => rfl
  | succ k ih =>
    have hd : n % 256 ^ (k + 1) / 256 = n / 256 % 256 ^ k := by
      rw [Nat.pow_succ, Nat.mul_comm, Nat.mod_mul_right_div_self]
    have hb : UInt8.ofNat (n % 256 ^ (k + 1)) = UInt8.ofNat n := by
      apply UInt8.toNat_inj.mp
      rw [UInt8.toNat_ofNat', UInt8.toNat_ofNat', Nat.pow_succ, Nat.mul_comm]
      exact Nat.mod_mul_right_mod n 256 _
    rw [leBytes, leBytes, hd, hb, ih]

theorem pack_zipWith_swap : ∀ ks ns : List Nat, pack ks (List.zipWith swap ks ns) = packBe ks ns
  | [], _ => by simp [pack, packBe]
  | _ :: _, [] => by simp [pack, packBe]
  | k :: ks, n :: ns => by
    rw [List.zipWith_cons_cons, pack, packBe, pack_zipWith_swap ks ns, leBytes_swap, beBytes_eq]

end Bytes
