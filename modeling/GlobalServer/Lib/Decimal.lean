import GlobalServer.Lib.Bytes

/-!
# Decimal numbers in byte strings

`atoi` as the C library of the target computes it: `strtol` in 64 bits, whose
value is then cut to an `int`.
-/

namespace Decimal

open Bytes

def isSpace (b : UInt8) : Bool := b = 32 ∨ (9 ≤ b ∧ b ≤ 13)

def isDigit (b : UInt8) : Bool := 48 ≤ b ∧ b ≤ 57

/-- The value of the digits at the front, read behind `n`. -/
def digits (n : Nat) : List UInt8 → Nat
  | [] => n
  | b :: l => if isDigit b then digits (10 * n + (b.toNat - 48)) l else n

def strtol (l : List UInt8) : Int :=
  match l.dropWhile isSpace with
  | 45 :: l => max (-2 ^ 63) (-(digits 0 l : Int))
  | 43 :: l => min (2 ^ 63 - 1) (digits 0 l : Int)
  | l => min (2 ^ 63 - 1) (digits 0 l : Int)

/-- Whether `strtol` stops before the bytes end. -/
def stops (l : List UInt8) : Bool :=
  match l.dropWhile isSpace with
  | 45 :: l => l.dropWhile isDigit ≠ []
  | 43 :: l => l.dropWhile isDigit ≠ []
  | l => l.dropWhile isDigit ≠ []

def atoi (l : List UInt8) : Int := i32 (strtol l)

/-! ## Numbers as digits -/

/-- `std::to_string` -/
def ofNat (n : Nat) : List UInt8 := (Nat.toDigits 10 n).map Char.toUInt8

theorem toNat_toUInt8 {c : Char} (h : c.isDigit = true) : c.toUInt8.toNat = c.toNat ∧ isDigit c.toUInt8 = true := by
  obtain ⟨h1, h2⟩ := Char.isDigit_iff_toNat.mp h
  change 48 ≤ c.toNat at h1
  change c.toNat ≤ 57 at h2
  have hn : c.toUInt8.toNat = c.toNat := by
    show c.toNat % 2 ^ 8 = c.toNat
    exact Nat.mod_eq_of_lt (by omega)
  refine ⟨hn, ?_⟩
  unfold isDigit
  simp only [UInt8.le_iff_toNat_le, hn, Bool.decide_and, Bool.and_eq_true, decide_eq_true_eq]
  exact ⟨h1, h2⟩

theorem isDigit_of_mem_ofNat {n : Nat} {b : UInt8} (h : b ∈ ofNat n) : isDigit b = true := by
  obtain ⟨c, hc, rfl⟩ := List.mem_map.mp h
  exact (toNat_toUInt8 (Nat.isDigit_of_mem_toDigits (by decide) (by decide) hc)).2

theorem ofNat_ne_nil (n : Nat) : ofNat n ≠ [] := by
  unfold ofNat
  rw [Ne, List.map_eq_nil_iff]
  exact Nat.toDigits_ne_nil

theorem digits_map : ∀ (l : List Char) (n : Nat), (∀ c ∈ l, c.isDigit = true) →
    digits n (l.map Char.toUInt8) = Nat.ofDigitChars 10 l n
  | [], n, _ => by simp [digits]
  | c :: l, n, h => by
    obtain ⟨hn, hd⟩ := toNat_toUInt8 (h c (by simp))
    rw [List.map_cons, digits, if_pos hd, Nat.ofDigitChars_cons, hn]
    exact digits_map l _ fun c' hc => h c' (List.mem_cons_of_mem c hc)

theorem digits_ofNat (n : Nat) : digits 0 (ofNat n) = n := by
  unfold ofNat
  rw [digits_map _ _ fun c hc => Nat.isDigit_of_mem_toDigits (by decide) (by decide) hc]
  exact Nat.ofDigitChars_ten_toDigits

theorem atoi_ofNat {n : Nat} (h : n < 2 ^ 31) : atoi (ofNat n) = n := by
  obtain ⟨b, l, hl⟩ := List.exists_cons_of_ne_nil (ofNat_ne_nil n)
  have hd : isDigit b = true := isDigit_of_mem_ofNat (by rw [hl]; exact List.mem_cons_self)
  have hs : isSpace b = false := by
    unfold isDigit at hd
    unfold isSpace
    simp only [UInt8.le_iff_toNat_le, Bool.decide_and, Bool.and_eq_true, decide_eq_true_eq] at hd
    have h48 : 48 ≤ b.toNat := hd.1
    rw [decide_eq_false_iff_not, ← UInt8.toNat_inj]
    simp only [UInt8.le_iff_toNat_le]
    change ¬ (b.toNat = 32 ∨ 9 ≤ b.toNat ∧ b.toNat ≤ 13)
    omega
  have hstrtol : strtol (ofNat n) = min (2 ^ 63 - 1) (digits 0 (ofNat n) : Int) := by
    unfold strtol
    rw [hl, List.dropWhile_cons_of_neg (by rw [hs]; decide)]
    split
    · rename_i he
      cases he
      cases hd
    · rename_i he
      cases he
      cases hd
    · rfl
  unfold atoi
  rw [hstrtol, digits_ofNat, i32_of_range] <;> omega

theorem toUInt8_digitChar {n : Nat} (h : n < 10) : n.digitChar.toUInt8 = UInt8.ofNat (48 + n) := by
  have hall : ∀ m < 10, (Nat.digitChar m).toUInt8 = UInt8.ofNat (48 + m) := by decide
  exact hall n h

theorem ofNat_of_lt {n : Nat} (h : n < 10) : ofNat n = [UInt8.ofNat (48 + n)] := by
  unfold ofNat
  rw [Nat.toDigits_of_lt_base h, List.map_singleton, toUInt8_digitChar h]

theorem ofNat_of_le {n : Nat} (h : 10 ≤ n) : ofNat n = ofNat (n / 10) ++ [UInt8.ofNat (48 + n % 10)] := by
  unfold ofNat
  rw [Nat.toDigits_of_base_le (by decide) h, List.map_append, List.map_singleton,
    toUInt8_digitChar (Nat.mod_lt n (by decide))]

end Decimal
