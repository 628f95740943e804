import GlobalServer.Base.StringUtil
import Mathlib.Algebra.Group.Int.Defs
import Mathlib.Algebra.Group.Nat.Defs

/-!
# Times of the day

The time functions of `slience/base/util.cpp`. `gmtime` and `mktime` are linear:
a `struct tm` is the number of its day with the time of the day, and local time
is a fixed offset ahead of UTC.
-/

namespace GlobalServer

open StringUtil

/-- `iss >> t` into an `int`; where nothing but white space is left to read, `t` stays. -/
def readInt (t : Int) (sub : List Char) : Int :=
  let value : List Char → Int := fun l => Nat.ofDigitChars 10 (l.takeWhile Char.isDigit) 0
  match sub.dropWhile isspace with
  | [] => t
  | '-' :: l => max (-2 ^ 31) (-value l)
  | '+' :: l => min (2 ^ 31 - 1) (value l)
  | l => min (2 ^ 31 - 1) (value l)

/-- `HmsToSecond`; a new `int`, whose value is `t`, takes each piece. -/
def hmsToSecond (t : Int) (hms : String) : Int :=
  match pieces (readInt t) t [':'] hms.toList with
  | some [hour, minute, second] => hour * 3600 + minute * 60 + second
  | _ => 0

/-- How many seconds local time is ahead of UTC, which is less than 25 hours. -/
structure TimeZone where
  offset : Int
  lower : -90000 < offset
  upper : offset < 90000

/-- `struct tm` -/
structure Tm where
  day : Int
  hour : Int
  min : Int
  sec : Int

def gmtime (now : Int) : Tm :=
  { day := now / 86400, hour := now % 86400 / 3600, min := now % 3600 / 60, sec := now % 60 }

def mktime (zone : TimeZone) (tm : Tm) : Int :=
  tm.day * 86400 + tm.hour * 3600 + tm.min * 60 + tm.sec - zone.offset

def certainTimesOfDay (t : Int) (zone : TimeZone) (now : Int) (hms : String) : Int :=
  mktime zone { gmtime now with hour := 0, min := 0, sec := 0 } + hmsToSecond t hms

/-- The loop of `ClosestTimeOfDay`; `none` where it does not end. -/
def closestFrom (now peroid next : Int) : Option Int :=
  if next ≤ now then if 0 < peroid then closestFrom now peroid (next + peroid) else none else some next
termination_by (now + 1 - next).toNat

def closestTimeOfDay (t : Int) (zone : TimeZone) (now peroid : Int) : Option Int :=
  closestFrom now peroid (certainTimesOfDay t zone now "00:00:00")

/-! ## Valid times -/

/-- An hour, a minute and a second, as they are written. -/
structure Hms where
  hour : List Char
  minute : List Char
  second : List Char
  digits : ∀ f ∈ [hour, minute, second], f ≠ [] ∧ ∀ c ∈ f, c.isDigit = true
  hour_lt : Nat.ofDigitChars 10 hour 0 < 24
  minute_lt : Nat.ofDigitChars 10 minute 0 < 60
  second_lt : Nat.ofDigitChars 10 second 0 < 60

namespace Hms

variable (h : Hms)

def text : String := String.ofList ([':'].intercalate [h.hour, h.minute, h.second])

/-- The seconds since midnight. -/
def seconds : Nat :=
  Nat.ofDigitChars 10 h.hour 0 * 3600 + Nat.ofDigitChars 10 h.minute 0 * 60 + Nat.ofDigitChars 10 h.second 0

theorem seconds_lt : h.seconds < 86400 := by
  have h1 := h.hour_lt
  have h2 := h.minute_lt
  have h3 := h.second_lt
  unfold seconds
  omega

theorem isDigit_toNat {c : Char} (hc : c.isDigit = true) : 48 ≤ c.toNat ∧ c.toNat ≤ 57 := Char.isDigit_iff_toNat.mp hc

theorem isspace_of_isDigit {c : Char} (hc : c.isDigit = true) : isspace c = false := by
  obtain ⟨h1, h2⟩ := isDigit_toNat hc
  unfold isspace
  rw [decide_eq_false_iff_not]
  intro hs
  rcases hs with rfl | ⟨-, hs⟩
  · cases hc
  · have hle : c.toNat ≤ 13 := hs
    omega

theorem readInt_digits {t : Int} {f : List Char} (h0 : f ≠ []) (hd : ∀ c ∈ f, c.isDigit = true)
    (hlt : Nat.ofDigitChars 10 f 0 < 2 ^ 31) : readInt t f = Nat.ofDigitChars 10 f 0 := by
  obtain ⟨c, l, rfl⟩ := List.exists_cons_of_ne_nil h0
  have hc := hd c List.mem_cons_self
  have hs : ¬ isspace c = true := by rw [isspace_of_isDigit hc]; decide
  have ht : (c :: l).takeWhile Char.isDigit = c :: l := List.takeWhile_eq_self_iff.mpr hd
  unfold readInt
  rw [List.dropWhile_cons_of_neg hs]
  dsimp only
  split
  · rename_i he
    cases he
  · rename_i he
    cases he
    cases hc
  · rename_i he
    cases he
    cases hc
  · rw [ht]
    omega

theorem hmsToSecond_text (t : Int) : hmsToSecond t h.text = h.seconds := by
  have hd := h.digits
  simp only [List.forall_mem_cons] at hd
  obtain ⟨⟨n1, d1⟩, ⟨n2, d2⟩, ⟨n3, d3⟩, -⟩ := hd
  have hcolon : ∀ f : List Char, (∀ c ∈ f, c.isDigit = true) → ∀ c ∈ f, c ∉ [':'] := by
    intro f hf c hc hm
    have he := List.mem_singleton.mp hm
    have hdigit := hf c hc
    rw [he] at hdigit
    cases hdigit
  have ht : h.text.toList = h.hour ++ [':'] ++ (h.minute ++ [':'] ++ h.second) := by simp [text]
  have hn : [':'] ≠ [] := List.cons_ne_nil _ _
  have l1 := h.hour_lt
  have l2 := h.minute_lt
  have l3 := h.second_lt
  unfold hmsToSecond seconds
  rw [ht, pieces_append (hcolon _ d1) hn, pieces_append (hcolon _ d2) hn, pieces_last (hcolon _ d3), if_neg n1,
    if_neg n2, if_neg n3, readInt_digits n1 d1 (by omega), readInt_digits n2 d2 (by omega),
    readInt_digits n3 d3 (by omega)]
  simp

/-- The time of the day, were local midnight that of the UTC day. -/
theorem certainTimesOfDay_text (t : Int) (zone : TimeZone) (now : Int) :
    certainTimesOfDay t zone now h.text = now - now % 86400 - zone.offset + h.seconds := by
  unfold certainTimesOfDay mktime gmtime
  rw [hmsToSecond_text]
  simp only [Int.zero_mul, Int.add_zero]
  omega

end Hms

/-! ## The closest time -/

/-- A run of the loop of `ClosestTimeOfDay`, from `next_time` to the value that it leaves there. -/
inductive ClosestLoop (now peroid : Int) : Int → Int → Prop
  | exit {next : Int} : now < next → ClosestLoop now peroid next next
  | again {next last : Int} : next ≤ now → ClosestLoop now peroid (next + peroid) last → ClosestLoop now peroid next last

/-- The first of `base`, `base + peroid`, ... that is after `now`. -/
structure LeastAfter (now peroid base next : Int) : Prop where
  after : now < next
  reached : ∃ k : Nat, next = base + k * peroid
  least : ∀ k : Nat, now < base + k * peroid → next ≤ base + k * peroid

variable {now peroid next last : Int}

theorem ClosestLoop.lt_of_nonpos (hp : peroid ≤ 0) (h : ClosestLoop now peroid next last) : now < next := by
  induction h with
  | exit h => exact h
  | again hle _ ih => omega

theorem closestFrom_eq_some_iff : closestFrom now peroid next = some last ↔ ClosestLoop now peroid next last := by
  constructor
  · intro h
    induction next using closestFrom.induct now peroid with
    | case1 next hle hp ih =>
      rw [closestFrom, if_pos hle, if_pos hp] at h
      exact .again hle (ih h)
    | case2 next hle hp =>
      rw [closestFrom, if_pos hle, if_neg hp] at h
      cases h
    | case3 next hle =>
      rw [closestFrom, if_neg hle] at h
      cases h
      exact .exit (by omega)
  · intro h
    induction h with
    | exit h => rw [closestFrom, if_neg (by omega)]
    | @again next last hle hrest ih =>
      have hp : 0 < peroid := by
        by_contra hp
        have := hrest.lt_of_nonpos (by omega)
        omega
      rw [closestFrom, if_pos hle, if_pos hp, ih]

theorem ClosestLoop.leastAfter (hp : 0 ≤ peroid) (h : ClosestLoop now peroid next last) :
    LeastAfter now peroid next last := by
  induction h with
  | exit h =>
    refine ⟨h, ⟨0, by simp⟩, fun k _ => ?_⟩
    have hk : (0 : Int) ≤ k * peroid := Int.mul_nonneg (Int.natCast_nonneg k) hp
    omega
  | again hle _ ih =>
    have hstep : ∀ (n : Int) (k : Nat), n + peroid + k * peroid = n + (k + 1 : Nat) * peroid := fun n k => by
      rw [Int.natCast_succ, Int.add_mul, Int.one_mul]
      omega
    obtain ⟨k, hk⟩ := ih.reached
    refine ⟨ih.after, ⟨k + 1, hk.trans (hstep _ k)⟩, fun k hlt => ?_⟩
    cases k with
    | zero =>
      simp only [Int.natCast_zero, Int.zero_mul, Int.add_zero] at hlt
      omega
    | succ k =>
      rw [← hstep] at hlt ⊢
      exact ih.least k hlt

theorem closestLoop_ends_iff (hp : 0 ≤ peroid) :
    (∃ last, ClosestLoop now peroid next last) ↔ peroid ≠ 0 ∨ now < next := by
  constructor
  · intro ⟨last, h⟩
    by_cases h0 : peroid = 0
    · exact .inr (h.lt_of_nonpos (by omega))
    · exact .inl h0
  · intro h
    simp only [← closestFrom_eq_some_iff, ← Option.isSome_iff_exists]
    induction next using closestFrom.induct now peroid with
    | case1 next hle hp ih =>
      rw [closestFrom, if_pos hle, if_pos hp]
      exact ih (.inl (by omega))
    | case2 next hle hp => omega
    | case3 next hle => simp [closestFrom, hle]

/-- `ClosestTimeOfDay` ends with the least of the times after `now` exactly when there is a period or the first time
is after `now` already. -/
theorem closestTimeOfDay_least_iff (t : Int) (zone : TimeZone) (now : Int) (interval_seconds : UInt32) :
    (∃ next, ClosestLoop now interval_seconds.toNat (certainTimesOfDay t zone now "00:00:00") next ∧
      closestTimeOfDay t zone now interval_seconds.toNat = some next ∧
      LeastAfter now interval_seconds.toNat (certainTimesOfDay t zone now "00:00:00") next) ↔
    interval_seconds ≠ 0 ∨ now < certainTimesOfDay t zone now "00:00:00" := by
  have hp : (0 : Int) ≤ interval_seconds.toNat := Int.natCast_nonneg _
  have h0 : (interval_seconds.toNat : Int) ≠ 0 ↔ interval_seconds ≠ 0 := by
    rw [Ne, Ne, ← UInt32.toNat_inj, Int.natCast_eq_zero]
    rfl
  rw [← h0, ← closestLoop_ends_iff hp]
  constructor
  · intro ⟨next, h, _⟩
    exact ⟨next, h⟩
  · intro ⟨next, h⟩
    exact ⟨next, h, closestFrom_eq_some_iff.mpr h, h.leastAfter hp⟩

theorem certainTimesOfDay_midnight (t : Int) (zone : TimeZone) (now : Int) :
    certainTimesOfDay t zone now "00:00:00" = now - now % 86400 - zone.offset := by
  let midnight : Hms :=
    { hour := ['0', '0'], minute := ['0', '0'], second := ['0', '0'], digits := by simp, hour_lt := by decide
      minute_lt := by decide, second_lt := by decide }
  have h := midnight.certainTimesOfDay_text t zone now
  have hs : midnight.seconds = 0 := by decide
  have ht : midnight.text = "00:00:00" := by decide +kernel
  rw [hs, ht] at h
  simpa using h

def utc : TimeZone := { offset := 0, lower := by decide, upper := by decide }

/-- A period script whose `interval_seconds` was left out. -/
theorem closestTimeOfDay_without_period :
    ¬ ∃ next, ClosestLoop 1700000000 (UInt32.toNat 0) (certainTimesOfDay 0 utc 1700000000 "00:00:00") next := by
  rw [certainTimesOfDay_midnight]
  intro ⟨next, h⟩
  have := h.lt_of_nonpos (by decide)
  simp [utc] at this

end GlobalServer
