import GlobalServer.Lib.Decimal

/-!
# Unsigned numbers in a log line

`uint32_to_str` writes the digits from the last one to the first, two at a
time, and begins at an index that it computes from the number of digits.

A store outside the bytes from `dst` on is a fault. Indices are `size_t`.
-/

namespace GlobalServer.Logger

open Bytes

/-- The bytes from the pointer `dst` to the end of what it points into, of which a call may write `valid`. -/
structure Dest where
  bytes : List UInt8
  valid : Nat
  valid_le : valid ≤ bytes.length
  length_lt : bytes.length < 2 ^ 64

def store (bytes : List UInt8) (i : Nat) (c : UInt8) : Except Fault (List UInt8) :=
  if i < bytes.length then .ok (bytes.set i c) else .error .outOfBounds

def digits10 (value : Nat) : Nat := if value = 0 then 0 else digits10 (value / 10) + 1
termination_by value

/-- `digits` -/
def digits : List UInt8 :=
  ("0001020304050607080910111213141516171819" ++
   "2021222324252627282930313233343536373839" ++
   "4041424344454647484950515253545556575859" ++
   "6061626364656667686970717273747576777879" ++
   "8081828384858687888990919293949596979899").toList.map Char.toUInt8

/-- `dst[next] = digits[i + 1]; dst[next - 1] = digits[i];` -/
def storePair (bytes : List UInt8) (next i : Nat) : Except Fault (List UInt8) := do
  let bytes ← store bytes next (digits.getD (i + 1) 0)
  store bytes (sub64 next 1) (digits.getD i 0)

def storeDigits (value next : Nat) (bytes : List UInt8) : Except Fault (List UInt8) :=
  if 100 ≤ value then do
    let bytes ← storePair bytes next (value % 100 * 2)
    storeDigits (value / 100) (sub64 next 2) bytes
  else if value < 10 then store bytes next (UInt8.ofNat (48 + value))
  else storePair bytes next (value * 2)
termination_by value

/-- What is at `dst` afterwards and the length that is returned. -/
def uint32_to_str (value : UInt32) (dst : Dest) : Except Fault (List UInt8 × Nat) :=
  let length := digits10 value.toNat
  if length > dst.valid then .ok (dst.bytes, 0)
  else do return (← storeDigits value.toNat (sub64 length 1) dst.bytes, length)

theorem length_of_store {bytes bytes' : List UInt8} {i : Nat} {c : UInt8} (h : store bytes i c = .ok bytes') :
    bytes'.length = bytes.length := by
  unfold store at h
  split at h
  · cases h
    exact List.length_set
  · cases h

theorem length_of_storePair {bytes bytes' : List UInt8} {next i : Nat} (h : storePair bytes next i = .ok bytes') :
    bytes'.length = bytes.length := by
  obtain ⟨bytes₁, h₁, h⟩ := Except.bind_eq_ok.mp h
  rw [length_of_store h, length_of_store h₁]

theorem length_of_storeDigits {value next : Nat} {bytes bytes' : List UInt8}
    (h : storeDigits value next bytes = .ok bytes') : bytes'.length = bytes.length := by
  induction value using Nat.strongRecOn generalizing next bytes with
  | ind value ih =>
    rw [storeDigits] at h
    split at h
    · obtain ⟨bytes₁, h₁, h⟩ := Except.bind_eq_ok.mp h
      rw [ih (value / 100) (by omega) h, length_of_storePair h₁]
    · split at h
      · exact length_of_store h
      · exact length_of_storePair h

theorem length_of_uint32_to_str {value : UInt32} {dst : Dest} {r : List UInt8 × Nat}
    (h : uint32_to_str value dst = .ok r) : r.1.length = dst.bytes.length := by
  unfold uint32_to_str at h
  dsimp only at h
  split at h
  · cases h
    rfl
  · obtain ⟨bytes, hs, h⟩ := Except.bind_eq_ok.mp h
    cases h
    exact length_of_storeDigits hs

/-! ## What is written -/

/-- The two digits of a number below 100. -/
def pair (i : Nat) : List UInt8 := [UInt8.ofNat (48 + i / 10), UInt8.ofNat (48 + i % 10)]

theorem digits_eq : digits = (List.range 100).flatMap pair := by decide +kernel

theorem getD_flatMap_pair (l : List Nat) {i : Nat} (h : i < l.length) :
    (l.flatMap pair).getD (i * 2) 0 = UInt8.ofNat (48 + l[i] / 10) ∧
      (l.flatMap pair).getD (i * 2 + 1) 0 = UInt8.ofNat (48 + l[i] % 10) := by
  induction l generalizing i with
  | nil => cases h
  | cons n l ih =>
    cases i with
    | zero => exact ⟨rfl, rfl⟩
    | succ i =>
      rw [Nat.succ_mul]
      exact ih (Nat.lt_of_succ_lt_succ h)

theorem digits_getD {i : Nat} (h : i < 100) :
    digits.getD (i * 2) 0 = UInt8.ofNat (48 + i / 10) ∧ digits.getD (i * 2 + 1) 0 = UInt8.ofNat (48 + i % 10) := by
  have hl : i < (List.range 100).length := by rwa [List.length_range]
  simpa only [digits_eq, List.getElem_range] using getD_flatMap_pair _ hl

theorem ofNat_pair {value : Nat} (h : 100 ≤ value) :
    Decimal.ofNat value = Decimal.ofNat (value / 100) ++ pair (value % 100) := by
  have hd : value / 10 / 10 = value / 100 := Nat.div_div_eq_div_mul value 10 10
  have hq : value / 10 % 10 = value % 100 / 10 := by omega
  have hr : value % 10 = value % 100 % 10 := by omega
  rw [Decimal.ofNat_of_le (by omega), Decimal.ofNat_of_le (n := value / 10) (by omega), hd, hq, hr, List.append_assoc]
  rfl

theorem ofNat_two {value : Nat} (h : 10 ≤ value) (h' : value < 100) : Decimal.ofNat value = pair value := by
  rw [Decimal.ofNat_of_le h, Decimal.ofNat_of_lt (by omega)]
  rfl

theorem digits10_eq {value : Nat} (h : value ≠ 0) : digits10 value = (Decimal.ofNat value).length := by
  induction value using digits10.induct with
  | case1 => exact absurd rfl h
  | case2 value h ih =>
    rw [digits10, if_neg h]
    rcases Nat.lt_or_ge value 10 with hlt | hle
    · rw [Nat.div_eq_of_lt hlt, Decimal.ofNat_of_lt hlt]
      simp [digits10]
    · rw [ih (by omega), Decimal.ofNat_of_le hle, List.length_append, List.length_singleton]

theorem storePair_eq {bytes : List UInt8} {k i : Nat} (hk : k + 2 ≤ bytes.length) (hl : bytes.length < 2 ^ 64)
    (hi : i < 100) :
    ∃ bytes', storePair bytes (k + 1) (i * 2) = .ok bytes' ∧ bytes'.length = bytes.length ∧
      bytes'.drop k = pair i ++ bytes.drop (k + 2) := by
  obtain ⟨h0, h1⟩ := digits_getD hi
  have hsub : sub64 (k + 1) 1 = k := by
    rw [sub64_of_le (by omega) (by omega)]
    omega
  refine ⟨(bytes.set (k + 1) (UInt8.ofNat (48 + i % 10))).set k (UInt8.ofNat (48 + i / 10)), ?_, ?_, ?_⟩
  · unfold storePair store
    rw [h0, h1, hsub, if_pos (by omega)]
    show (if k < (bytes.set _ _).length then _ else _) = _
    rw [if_pos (by rw [List.length_set]; omega)]
  · simp
  · have hlt : k < bytes.length := by omega
    have hlt' : k + 1 < bytes.length := by omega
    have hdrop : ∀ c d : UInt8, ((bytes.set (k + 1) c).set k d).drop (k + 1 + 1) = bytes.drop (k + 2) := fun c d => by
      rw [List.drop_set_of_lt (by omega), List.drop_set_of_lt (by omega)]
    rw [List.drop_eq_getElem_cons (by simpa using hlt), List.drop_eq_getElem_cons (by simpa using hlt'), hdrop]
    simp [pair]

theorem storeDigits_eq {value next : Nat} {bytes : List UInt8} (hv : value ≠ 0) (hl : bytes.length < 2 ^ 64)
    (hn : next + 1 = (Decimal.ofNat value).length) (hf : next + 1 ≤ bytes.length) :
    storeDigits value next bytes = .ok (Decimal.ofNat value ++ bytes.drop (next + 1)) := by
  induction value using Nat.strongRecOn generalizing next bytes with
  | ind value ih =>
    rw [storeDigits]
    rcases Nat.lt_or_ge value 10 with hlt | hge
    · rw [Decimal.ofNat_of_lt hlt] at hn ⊢
      obtain rfl : next = 0 := by simpa using hn
      rw [if_neg (by omega), if_pos hlt, store, if_pos (by omega)]
      cases bytes with
      | nil => simp at hf
      | cons b bytes => simp
    rcases Nat.lt_or_ge value 100 with hlt | hge'
    · rw [ofNat_two hge hlt] at hn ⊢
      obtain rfl : next = 0 + 1 := by simpa [pair] using hn
      obtain ⟨bytes', he, hlen, hd⟩ := storePair_eq hf hl hlt
      rw [if_neg (by omega), if_neg (by omega), he, ← hd, List.drop_zero]
    · rw [ofNat_pair hge', List.length_append] at hn
      have hp : (pair (value % 100)).length = 2 := rfl
      have hpos : 0 < (Decimal.ofNat (value / 100)).length := List.length_pos_iff.mpr (Decimal.ofNat_ne_nil _)
      obtain ⟨k, rfl⟩ : ∃ k, next = k + 1 + 1 := ⟨next - 2, by omega⟩
      obtain ⟨bytes', he, hlen, hd⟩ := storePair_eq (k := k + 1) hf hl (Nat.mod_lt value (by decide : 0 < 100))
      have hsub : sub64 (k + 1 + 1) 2 = k := by
        rw [sub64_of_le (by omega) (by omega)]
        omega
      rw [if_pos hge', he]
      show storeDigits (value / 100) _ bytes' = _
      rw [hsub, ih (value / 100) (by omega) (by omega) (by omega) (by omega) (by omega), hd, ← List.append_assoc,
        ← ofNat_pair hge']

/-- What the call is for: the decimal text and its length where that fits, and nothing otherwise. -/
def Dest.text (dst : Dest) (value : UInt32) : List UInt8 × Nat :=
  let text := Decimal.ofNat value.toNat
  if text.length ≤ dst.valid then (text ++ dst.bytes.drop text.length, text.length) else (dst.bytes, 0)

theorem uint32_to_str_of_ne_zero {value : UInt32} (h : value ≠ 0) (dst : Dest) :
    uint32_to_str value dst = .ok (dst.text value) := by
  have hne : value.toNat ≠ 0 := fun h0 => h (UInt32.toNat_inj.mp h0)
  have hpos : 0 < (Decimal.ofNat value.toNat).length := List.length_pos_iff.mpr (Decimal.ofNat_ne_nil _)
  have hle := dst.valid_le
  have hlt := dst.length_lt
  unfold uint32_to_str Dest.text
  rw [digits10_eq hne]
  dsimp only
  split
  · rw [if_neg (by omega)]
  · rw [if_pos (by omega), sub64_of_le (by omega) (by omega),
      storeDigits_eq hne hlt (by omega) (by omega), Nat.sub_add_cancel hpos]
    rfl

theorem uint32_to_str_zero (dst : Dest) : uint32_to_str 0 dst = .error .outOfBounds := by
  have hlt := dst.length_lt
  have hd : digits10 (UInt32.toNat 0) = 0 := by
    rw [digits10]
    rfl
  have hstore : store dst.bytes (sub64 0 1) (UInt8.ofNat (48 + 0)) = .error .outOfBounds := by
    unfold store sub64
    exact if_neg (by omega)
  unfold uint32_to_str
  rw [hd]
  show (do return (← storeDigits 0 (sub64 0 1) dst.bytes, 0) : Except Fault (List UInt8 × Nat)) = _
  rw [storeDigits, if_neg (by omega), if_pos (by omega), hstore]
  rfl

theorem uint32_to_str_eq_iff (value : UInt32) (dst : Dest) :
    uint32_to_str value dst = .ok (dst.text value) ↔ value ≠ 0 := by
  constructor
  · intro h h0
    rw [h0, uint32_to_str_zero] at h
    cases h
  · exact fun h => uint32_to_str_of_ne_zero h dst

/-! ## The stream operators -/

/-- `fixedbuffer<SIZE>`, whose `_data` has one byte more than `SIZE`. -/
structure FixedBuffer (SIZE : Nat) where
  data : List UInt8
  pos : Nat
  length_data : data.length = SIZE + 1
  pos_le : pos ≤ SIZE
  size_lt : SIZE + 1 < 2 ^ 64

namespace FixedBuffer

variable {SIZE : Nat}

def avail (b : FixedBuffer SIZE) : Nat := SIZE - b.pos

/-- The bytes of the line so far. -/
def contents (b : FixedBuffer SIZE) : List UInt8 := b.data.take b.pos

/-- `current()`, with what `avail()` allows. -/
def current (b : FixedBuffer SIZE) : Dest where
  bytes := b.data.drop b.pos
  valid := b.avail
  valid_le := by
    have := b.length_data
    unfold avail
    rw [List.length_drop]
    omega
  length_lt := by
    have := b.length_data
    have := b.size_lt
    rw [List.length_drop]
    omega

/-- `seek`, which is only asked to go forward here. -/
def seek (b : FixedBuffer SIZE) (incr : Nat) : FixedBuffer SIZE :=
  { b with pos := min (b.pos + incr) SIZE, pos_le := Nat.min_le_right _ _ }

/-- `operator<<` of an `unsigned int` -/
def putUnsignedInt (b : FixedBuffer SIZE) (value : UInt32) : Except Fault (FixedBuffer SIZE) :=
  match h : uint32_to_str value b.current with
  | .error f => .error f
  | .ok r => .ok (FixedBuffer.seek
      { b with
        data := b.data.take b.pos ++ r.1
        length_data := by
          have hr : r.1.length = (b.data.drop b.pos).length := length_of_uint32_to_str h
          rw [List.length_append, hr, ← List.length_append, List.take_append_drop, b.length_data] }
      r.2)

/-- `operator<<` of an `unsigned short` -/
def putUnsignedShort (b : FixedBuffer SIZE) (value : UInt16) : Except Fault (FixedBuffer SIZE) :=
  b.putUnsignedInt value.toUInt32

/-- The line is now `r`, with the decimal text at its end if there was room for it. -/
def Appends (b : FixedBuffer SIZE) (value : Nat) (r : Except Fault (FixedBuffer SIZE)) : Prop :=
  ∃ b', r = .ok b' ∧
    b'.contents = b.contents ++ if (Decimal.ofNat value).length ≤ b.avail then Decimal.ofNat value else []

theorem putUnsignedInt_of_ok {b : FixedBuffer SIZE} {value : UInt32} {r : List UInt8 × Nat}
    (h : uint32_to_str value b.current = .ok r) :
    ∃ b', b.putUnsignedInt value = .ok b' ∧ b'.data = b.data.take b.pos ++ r.1 ∧ b'.pos = min (b.pos + r.2) SIZE := by
  unfold putUnsignedInt
  split
  · rename_i f he
    rw [he] at h
    cases h
  · rename_i r' he
    rw [he] at h
    cases h
    exact ⟨_, rfl, rfl, rfl⟩

theorem putUnsignedInt_of_error {b : FixedBuffer SIZE} {value : UInt32} {f : Fault}
    (h : uint32_to_str value b.current = .error f) : b.putUnsignedInt value = .error f := by
  unfold putUnsignedInt
  split
  · rename_i f' he
    rw [he] at h
    cases h
    rfl
  · rename_i r he
    rw [he] at h
    cases h

theorem appends_iff (b : FixedBuffer SIZE) (value : UInt32) :
    b.Appends value.toNat (b.putUnsignedInt value) ↔ value ≠ 0 := by
  constructor
  · intro h h0
    obtain ⟨b', h, -⟩ := h
    rw [h0, putUnsignedInt_of_error (uint32_to_str_zero _)] at h
    cases h
  · intro h
    obtain ⟨b', hb, hdata, hpos⟩ := putUnsignedInt_of_ok (uint32_to_str_of_ne_zero h b.current)
    refine ⟨b', hb, ?_⟩
    have hp := b.pos_le
    have hlen : (b.data.take b.pos).length = b.pos := by
      have := b.length_data
      rw [List.length_take]
      omega
    unfold contents
    rw [hdata, hpos]
    by_cases hfit : (Decimal.ofNat value.toNat).length ≤ b.avail
    · have htext : b.current.text value = _ := if_pos hfit
      have hle : b.pos + (Decimal.ofNat value.toNat).length ≤ SIZE := by
        unfold avail at hfit
        omega
      rw [htext, if_pos hfit, Nat.min_eq_left hle, ← List.append_assoc, List.take_append_of_le_length,
        List.take_of_length_le] <;> simp [hlen]
    · have htext : b.current.text value = _ := if_neg hfit
      rw [htext, if_neg hfit, List.append_nil, Nat.add_zero, Nat.min_eq_left hp]
      exact (List.take_append_of_le_length hlen.ge).trans (List.take_of_length_le hlen.le)

end FixedBuffer

abbrev Logstream := FixedBuffer (4 * 1024)

/-- `uint32_to_str` and the operators that use it do what they are for exactly when the number is not 0. -/
theorem unsigned_text_iff (value : UInt32) (dst : Dest) (stream : Logstream) (short : UInt16) :
    (uint32_to_str value dst = .ok (dst.text value) ↔ value ≠ 0) ∧
    (stream.Appends value.toNat (stream.putUnsignedInt value) ↔ value ≠ 0) ∧
    (stream.Appends short.toNat (stream.putUnsignedShort short) ↔ short ≠ 0) := by
  refine ⟨uint32_to_str_eq_iff value dst, stream.appends_iff value, ?_⟩
  have h := stream.appends_iff short.toUInt32
  have hne : short.toUInt32 ≠ 0 ↔ short ≠ 0 := by
    rw [Ne, Ne, ← UInt32.toNat_inj, ← UInt16.toNat_inj, UInt16.toNat_toUInt32]
    rfl
  rw [UInt16.toNat_toUInt32, hne] at h
  exact h

def eightBytes : Dest := { bytes := List.replicate 8 32, valid := 8, valid_le := by decide, length_lt := by decide }

theorem uint32_to_str_zero_fails :
    eightBytes.text 0 = (48 :: List.replicate 7 32, 1) ∧ uint32_to_str 0 eightBytes ≠ .ok (eightBytes.text 0) ∧
      uint32_to_str 0 eightBytes = .error .outOfBounds := by
  refine ⟨by decide +kernel, fun h => ?_, uint32_to_str_zero _⟩
  rw [uint32_to_str_zero] at h
  cases h

end GlobalServer.Logger
