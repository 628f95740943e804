import GlobalServer.Lib.Decimal

/-!
# Replies on the wire

A reply is a byte that says what it is, a line, and what the line announces:
the bytes of a string, or the replies of an array. `Within d` are the replies
that go into a reader whose stack has room for `d` arrays within each other.
-/

namespace Resp

inductive Value where
  | status (line : List UInt8)
  | error (line : List UInt8)
  | integer (n : Int)
  | bulk (s : List UInt8)
  | nullBulk
  | array (l : List Value)
  | nullArray

def cr : UInt8 := 13

def lf : UInt8 := 10

def crlf : List UInt8 := [cr, lf]

def minus : UInt8 := 45

def ofInt (n : Int) : List UInt8 := if n < 0 then minus :: Decimal.ofNat n.natAbs else Decimal.ofNat n.natAbs

mutual

def encode : Value → List UInt8
  | .status line => 43 :: (line ++ crlf)
  | .error line => minus :: (line ++ crlf)
  | .integer n => 58 :: (ofInt n ++ crlf)
  | .bulk s => 36 :: (Decimal.ofNat s.length ++ crlf ++ (s ++ crlf))
  | .nullBulk => 36 :: (ofInt (-1) ++ crlf)
  | .array l => 42 :: (Decimal.ofNat l.length ++ crlf ++ encodeAll l)
  | .nullArray => 42 :: (ofInt (-1) ++ crlf)

def encodeAll : List Value → List UInt8
  | [] => []
  | v :: l => encode v ++ encodeAll l

end

mutual

def Within : Nat → Value → Prop
  | _, .status line => lf ∉ line
  | _, .error line => lf ∉ line
  | _, .integer n => -2 ^ 63 < n ∧ n < 2 ^ 63
  | _, .bulk s => s.length < 2 ^ 63
  | _, .nullBulk => True
  | 0, .array _ => False
  | d + 1, .array l => l.length < 2 ^ 31 ∧ WithinAll d l
  | 0, .nullArray => False
  | _ + 1, .nullArray => True

def WithinAll : Nat → List Value → Prop
  | _, [] => True
  | d, v :: l => Within d v ∧ WithinAll d l

end

@[simp] theorem encodeAll_nil : encodeAll [] = [] := by simp [encodeAll]

@[simp] theorem encodeAll_cons (v : Value) (l : List Value) : encodeAll (v :: l) = encode v ++ encodeAll l := by
  simp [encodeAll]

theorem encodeAll_append (l m : List Value) : encodeAll (l ++ m) = encodeAll l ++ encodeAll m := by
  induction l with
  | nil => simp
  | cons v l ih => rw [List.cons_append, encodeAll_cons, encodeAll_cons, ih, List.append_assoc]

theorem withinAll_iff {d : Nat} {l : List Value} : WithinAll d l ↔ ∀ v ∈ l, Within d v := by
  induction l with
  | nil => simp [WithinAll]
  | cons v l ih => simp [WithinAll, ih]

theorem within_array {d : Nat} {l : List Value} :
    Within (d + 1) (.array l) ↔ l.length < 2 ^ 31 ∧ ∀ v ∈ l, Within d v := by
  rw [Within, withinAll_iff]

@[simp] theorem within_status {d : Nat} {line : List UInt8} : Within d (.status line) ↔ lf ∉ line := by
  cases d <;> simp [Within]

@[simp] theorem within_error {d : Nat} {line : List UInt8} : Within d (.error line) ↔ lf ∉ line := by
  cases d <;> simp [Within]

@[simp] theorem within_integer {d : Nat} {n : Int} : Within d (.integer n) ↔ -2 ^ 63 < n ∧ n < 2 ^ 63 := by
  cases d <;> simp [Within]

@[simp] theorem within_bulk {d : Nat} {s : List UInt8} : Within d (.bulk s) ↔ s.length < 2 ^ 63 := by
  cases d <;> simp [Within]

end Resp
