import Mathlib.Data.List.Basic

/-!
# Regular expressions of single characters

A regular expression is a row of single characters, each with a quantifier or
without, and of the anchors at the two ends of the text. Groups, sets,
alternatives, counted repetition and escapes of letters and digits are left
out, and reported as such. A `{` that begins no repetition is a character.
-/

namespace Regex

/-! ## Syntax -/

inductive Single where
  | lit (c : Char)
  /-- any character but the end of a line -/
  | any
  deriving DecidableEq

inductive Quant where
  | opt | star | plus
  deriving DecidableEq

inductive Token where
  | single (s : Single)
  | quant (q : Quant)
  | bol
  | eol
  deriving DecidableEq

inductive Item where
  | one (s : Single)
  | opt (s : Single)
  | star (s : Single)
  | plus (s : Single)
  | bol
  | eol
  deriving DecidableEq

inductive Fault where
  /-- not a regular expression -/
  | error
  /-- one that is left out here -/
  | unsupported
  deriving DecidableEq

/-- The characters that do not stand for themselves, but for the `{` of a counted repetition. -/
def special : List Char := ['.', '^', '$', '*', '+', '?', '\\', '(', ')', '[', '|']

/-- What follows a `{` makes a counted repetition of it: digits, or a comma with digits on both sides or none, and `}`. -/
def counted (l : List Char) : Bool :=
  if l.head? = some '}' then false
  else
    match l.dropWhile Char.isDigit with
    | '}' :: _ => true
    | ',' :: l => (l.dropWhile Char.isDigit).head? = some '}'
    | _ => false

/-- A character, with what follows it. -/
def token (c : Char) (l : List Char) : Except Fault Token :=
  if c = '.' then .ok (.single .any)
  else if c = '^' then .ok .bol
  else if c = '$' then .ok .eol
  else if c = '*' then .ok (.quant .star)
  else if c = '+' then .ok (.quant .plus)
  else if c = '?' then .ok (.quant .opt)
  else if c ∈ special ∨ (c = '{' ∧ counted l) then .error .unsupported
  else .ok (.single (.lit c))

def tokens : List Char → Except Fault (List Token)
  | [] => .ok []
  | '\\' :: [] => .error .error
  | '\\' :: c :: l => if c.isAlphanum then .error .unsupported else (.single (.lit c) :: ·) <$> tokens l
  | c :: l => do
    let t ← token c l
    (t :: ·) <$> tokens l

def quantified (s : Single) : Quant → Item
  | .opt => .opt s
  | .star => .star s
  | .plus => .plus s

/-- A quantifier stands behind a single character, and a `?` behind it makes it lazy. -/
def items : List Token → Except Fault (List Item)
  | [] => .ok []
  | .quant _ :: _ => .error .error
  | .bol :: l => (.bol :: ·) <$> items l
  | .eol :: l => (.eol :: ·) <$> items l
  | .single s :: .quant q :: .quant .opt :: l => (quantified s q :: ·) <$> items l
  | .single s :: .quant q :: l => (quantified s q :: ·) <$> items l
  | .single s :: l => (.one s :: ·) <$> items l

def parse (pattern : List Char) : Except Fault (List Item) := do items (← tokens pattern)

/-! ## Matching -/

def Single.admits : Single → Char → Bool
  | .lit c, d => d = c
  | .any, d => d ≠ '\n'

/-- Any number of characters, and then `k`. The flag of `k` says whether this is the start of the text. -/
def loop (s : Single) (k : Bool → List Char → Bool) : Bool → List Char → Bool
  | start, [] => k start []
  | start, c :: text => k start (c :: text) || (s.admits c && loop s k false text)

/-- Whether the text begins with a match. The end of the text is also before a newline at its end. -/
def matchItems : List Item → Bool → List Char → Bool
  | [], _, _ => true
  | .bol :: r, start, text => start && matchItems r start text
  | .eol :: r, start, text => (text = [] || text = ['\n']) && matchItems r start text
  | .one s :: r, _, text => match text with | [] => false | c :: text => s.admits c && matchItems r false text
  | .opt s :: r, start, text =>
    matchItems r start text || match text with | [] => false | c :: text => s.admits c && matchItems r false text
  | .star s :: r, start, text => loop s (matchItems r) start text
  | .plus s :: r, _, text => match text with | [] => false | c :: text => s.admits c && loop s (matchItems r) false text

def startsWith (pattern text : List Char) : Except Fault Bool := do
  return matchItems (← parse pattern) true text

/-! ## Literal text and `.+` -/

/-- No character of the text means anything but itself. -/
def plain : List Char → Bool
  | [] => true
  | c :: l => decide (c ∉ special ∧ ¬ (c = '{' ∧ counted l)) && plain l

/-- No counted repetition goes on here. -/
def Ends (l : List Char) : Prop := ∀ c ∈ l.head?, c.isDigit = false ∧ c ≠ ',' ∧ c ≠ '}'

section
variable {l : List Char} (hl : Ends l)
include hl

theorem dropDigits_append : ∀ w : List Char, (w ++ l).dropWhile Char.isDigit = w.dropWhile Char.isDigit ++ l
  | [] => by
    cases l with
    | nil => rfl
    | cons c l =>
      have hc := (hl c rfl).1
      simp [hc]
  | c :: w => by
    cases hc : c.isDigit with
    | true => simp [hc, dropDigits_append w]
    | false => simp [hc]

theorem head_append_brace (w : List Char) : (w ++ l).head? = some '}' ↔ w.head? = some '}' := by
  cases w with
  | nil =>
    refine ⟨fun h => ?_, nofun⟩
    exact absurd rfl (hl '}' h).2.2
  | cons c w => rfl

theorem counted_append (w : List Char) : counted (w ++ l) = counted w := by
  unfold counted
  simp only [head_append_brace hl, dropDigits_append hl]
  cases w.dropWhile Char.isDigit with
  | nil =>
    cases l with
    | nil => rfl
    | cons c l =>
      obtain ⟨-, h1, h2⟩ := hl c rfl
      simp [h1, h2]
  | cons d w =>
    by_cases h1 : d = '}'
    · subst h1
      rfl
    · by_cases h2 : d = ','
      · subst h2
        simp only [List.cons_append, dropDigits_append hl, head_append_brace hl]
      · simp [h1, h2]

theorem tokens_lit : ∀ {w : List Char}, plain w = true →
    tokens (w ++ l) = (w.map (fun c => Token.single (.lit c)) ++ ·) <$> tokens l
  | [], _ => by
    cases h : tokens l <;> simp [h]
  | c :: w, h => by
    rw [plain, Bool.and_eq_true, decide_eq_true_eq] at h
    obtain ⟨⟨hc, hcount⟩, hw⟩ := h
    have ht : token c (w ++ l) = .ok (.single (.lit c)) := by
      simp only [special, List.mem_cons, List.not_mem_nil, or_false, not_or] at hc
      rw [← counted_append hl] at hcount
      simp only [token, special, List.mem_cons, List.not_mem_nil, hc, hcount, or_false, if_false]
    have hb : c ≠ '\\' := by
      rintro rfl
      exact hc (by decide)
    have hcons : tokens (c :: (w ++ l)) = (Token.single (.lit c) :: ·) <$> tokens (w ++ l) := by
      rw [tokens]
      · rw [ht]
        rfl
      · exact fun h _ => hb h
      · exact fun _ _ h _ => hb h
    rw [List.cons_append, hcons, tokens_lit hw]
    cases tokens l <;> rfl

end

theorem tokens_escape {c : Char} (h : c.isAlphanum = false) (l : List Char) :
    tokens ('\\' :: c :: l) = (Token.single (.lit c) :: ·) <$> tokens l := by
  rw [tokens, if_neg (by simp [h])]

theorem tokens_anyPlus (l : List Char) :
    tokens ('.' :: '+' :: l) = ([Token.single .any, .quant .plus] ++ ·) <$> tokens l := by
  have hdot : tokens ('.' :: '+' :: l) = (Token.single .any :: ·) <$> tokens ('+' :: l) := by
    rw [tokens]
    · rfl
    · exact fun h _ => absurd h (by decide)
    · exact fun _ _ h _ => absurd h (by decide)
  have hplus : tokens ('+' :: l) = (Token.quant .plus :: ·) <$> tokens l := by
    rw [tokens]
    · rfl
    · exact fun h _ => absurd h (by decide)
    · exact fun _ _ h _ => absurd h (by decide)
  rw [hdot, hplus]
  cases tokens l <;> rfl

/-- No quantifier comes next. -/
def Unquantified (ts : List Token) : Prop := ∀ q l, ts ≠ .quant q :: l

theorem items_single {ts : List Token} (s : Single) (h : Unquantified ts) :
    items (.single s :: ts) = (Item.one s :: ·) <$> items ts := by
  rw [items]
  · exact fun q l he => h q _ he
  · exact fun q l he => h q l he

theorem items_lit {ts : List Token} (h : Unquantified ts) : ∀ w : List Char,
    items (w.map (fun c => Token.single (.lit c)) ++ ts) = (w.map (fun c => Item.one (.lit c)) ++ ·) <$> items ts
  | [] => by
    cases hi : items ts <;> simp [hi]
  | c :: w => by
    have hw : Unquantified (w.map (fun c => Token.single (.lit c)) ++ ts) := by
      cases w with
      | nil => exact h
      | cons d w => exact nofun
    rw [List.map_cons, List.cons_append, items_single _ hw, items_lit h w]
    cases items ts <;> rfl

theorem items_plus {ts : List Token} (s : Single) (h : Unquantified ts) :
    items (.single s :: .quant .plus :: ts) = (Item.plus s :: ·) <$> items ts := by
  rw [items]
  · rfl
  · exact fun l he => h .opt l he

theorem loop_congr {s : Single} {k k' : Bool → List Char → Bool} (hk : ∀ start text, k start text = k' false text) :
    ∀ (start : Bool) (text : List Char), loop s k start text = loop s k' false text
  | _, [] => hk _ []
  | _, c :: text => by
    unfold loop
    rw [hk, loop_congr hk]

theorem matchItems_start : ∀ {r : List Item}, Item.bol ∉ r → ∀ (start : Bool) (text : List Char),
    matchItems r start text = matchItems r false text
  | [], _, _, _ => rfl
  | i :: r, h, start, text => by
    rw [List.mem_cons, not_or] at h
    have ih := matchItems_start h.2
    cases i with
    | bol => exact absurd rfl h.1
    | eol =>
      unfold matchItems
      rw [ih start]
    | opt s =>
      unfold matchItems
      rw [ih start]
    | star s =>
      unfold matchItems
      exact loop_congr ih start text
    | one s | plus s => rfl

/-- `l` is read as the items `is`, whatever stands before it. -/
def Parses (l : List Char) (is : List Item) : Prop := ∃ ts, tokens l = .ok ts ∧ Unquantified ts ∧ items ts = .ok is

namespace Parses

variable {l : List Char} {is : List Item}

theorem eol : Parses ['$'] [.eol] := ⟨[.eol], rfl, nofun, rfl⟩

theorem lit (h : Parses l is) (hl : Ends l) {w : List Char} (hw : plain w = true) :
    Parses (w ++ l) (w.map (fun c => Item.one (.lit c)) ++ is) := by
  obtain ⟨ts, ht, hu, hi⟩ := h
  refine ⟨w.map (fun c => Token.single (.lit c)) ++ ts, by rw [tokens_lit hl hw, ht]; rfl, ?_, by rw [items_lit hu, hi]; rfl⟩
  cases w with
  | nil => exact hu
  | cons c w => exact nofun

theorem escape (h : Parses l is) {c : Char} (hc : c.isAlphanum = false) :
    Parses ('\\' :: c :: l) (.one (.lit c) :: is) := by
  obtain ⟨ts, ht, hu, hi⟩ := h
  exact ⟨.single (.lit c) :: ts, by rw [tokens_escape hc, ht]; rfl, nofun, by rw [items_single _ hu, hi]; rfl⟩

theorem anyPlus (h : Parses l is) : Parses ('.' :: '+' :: l) (.plus .any :: is) := by
  obtain ⟨ts, ht, hu, hi⟩ := h
  exact ⟨.single .any :: .quant .plus :: ts, by rw [tokens_anyPlus, ht]; rfl, nofun, by rw [items_plus _ hu, hi]; rfl⟩

theorem parse_bol (h : Parses l is) : parse ('^' :: l) = .ok (.bol :: is) := by
  obtain ⟨ts, ht, -, hi⟩ := h
  have hcons : tokens ('^' :: l) = (Token.bol :: ·) <$> tokens l := by
    rw [tokens]
    · rfl
    · exact fun h _ => absurd h (by decide)
    · exact fun _ _ h _ => absurd h (by decide)
  rw [parse, hcons, ht]
  show items (.bol :: ts) = _
  rw [items, hi]
  rfl

end Parses

section
variable {r : List Item} (hr : Item.bol ∉ r)
include hr

theorem loop_iff {s : Single} : ∀ {start : Bool} {text : List Char}, loop s (matchItems r) start text = true ↔
    ∃ u t, text = u ++ t ∧ (∀ c ∈ u, s.admits c = true) ∧ matchItems r false t = true
  | start, [] => by
    unfold loop
    rw [matchItems_start hr]
    constructor
    · intro h
      exact ⟨[], [], rfl, by simp, h⟩
    · rintro ⟨u, t, he, -, h⟩
      obtain ⟨rfl, rfl⟩ := List.append_eq_nil_iff.mp he.symm
      exact h
  | start, c :: text => by
    unfold loop
    rw [matchItems_start hr, Bool.or_eq_true, Bool.and_eq_true, loop_iff]
    constructor
    · rintro (h | ⟨hc, u, t, rfl, hu, h⟩)
      · exact ⟨[], c :: text, rfl, by simp, h⟩
      · exact ⟨c :: u, t, rfl, List.forall_mem_cons.mpr ⟨hc, hu⟩, h⟩
    · rintro ⟨u, t, he, hu, h⟩
      cases u with
      | nil =>
        left
        rw [he]
        exact h
      | cons d u =>
        obtain ⟨rfl, rfl⟩ := List.cons.inj he
        rw [List.forall_mem_cons] at hu
        exact .inr ⟨hu.1, u, t, rfl, hu.2, h⟩

theorem matchItems_plus {s : Single} {start : Bool} {text : List Char} : matchItems (.plus s :: r) start text = true ↔
    ∃ u t, text = u ++ t ∧ u ≠ [] ∧ (∀ c ∈ u, s.admits c = true) ∧ matchItems r false t = true := by
  cases text with
  | nil =>
    refine ⟨nofun, ?_⟩
    rintro ⟨u, t, he, hu, -⟩
    exact absurd (List.append_eq_nil_iff.mp he.symm).1 hu
  | cons c text =>
    rw [matchItems, Bool.and_eq_true, loop_iff hr]
    constructor
    · rintro ⟨hc, u, t, rfl, hu, h⟩
      exact ⟨c :: u, t, rfl, List.cons_ne_nil c u, List.forall_mem_cons.mpr ⟨hc, hu⟩, h⟩
    · rintro ⟨u, t, he, hne, hu, h⟩
      obtain ⟨d, u, rfl⟩ := List.exists_cons_of_ne_nil hne
      obtain ⟨rfl, rfl⟩ := List.cons.inj he
      rw [List.forall_mem_cons] at hu
      exact ⟨hu.1, u, t, rfl, hu.2, h⟩

theorem matchItems_lit : ∀ {w text : List Char} {start : Bool},
    matchItems (w.map (fun c => Item.one (.lit c)) ++ r) start text = true ↔
      ∃ t, text = w ++ t ∧ matchItems r false t = true
  | [], text, start => by
    rw [List.map_nil, List.nil_append, matchItems_start hr]
    simp
  | c :: w, [], start => by simp [matchItems]
  | c :: w, d :: text, start => by
    rw [List.map_cons, List.cons_append, matchItems, Bool.and_eq_true, matchItems_lit]
    simp only [Single.admits, decide_eq_true_eq, List.cons_append, List.cons.injEq]
    constructor
    · rintro ⟨hd, t, ht, h⟩
      exact ⟨t, ⟨hd, ht⟩, h⟩
    · rintro ⟨t, ⟨hd, ht⟩, h⟩
      exact ⟨hd, t, ht, h⟩

end

end Regex
