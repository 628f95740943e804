import GlobalServer.Excel.Translator
import Mathlib.Data.List.Basic
import Mathlib.Algebra.Group.Int.Defs

/-!
# The cells of an array

`DataParser` converts a cell of an array to the type of the elements first, as
it does with other cells, then to a `float` and to an `int`, and appends that
to the field. An exception on the way ends the translator.
-/

namespace GlobalServer.Excel

/-- The types that the elements of an array are declared with. -/
inductive ElementType where
  | int32 | float | string

def ElementType.name : ElementType → String
  | .int32 => "int32"
  | .float => "float"
  | .string => "string"

/-- A column of an array of elements of a type. -/
structure ArrayColumn (ty : ElementType) where
  column : Column
  inScope : column.inScope = true
  isArray : column.isArray = true
  fieldType : column.fieldType = ty.name

instance Takes.decidable {F : Type} (t : String) : (v : Value F) → Decidable (Takes t v)
  | .int n => inferInstanceAs (Decidable
      ((t ∈ int32Types ∧ -2 ^ 31 ≤ n ∧ n < 2 ^ 31) ∨ (t ∈ int64Types ∧ -2 ^ 63 ≤ n ∧ n < 2 ^ 63) ∨
        (t ∈ uint32Types ∧ 0 ≤ n ∧ n < 2 ^ 32) ∨ (t ∈ uint64Types ∧ 0 ≤ n ∧ n < 2 ^ 64) ∨ t ∈ floatTypes))
  | .float _ => inferInstanceAs (Decidable (t ∈ floatTypes))
  | .unicode _ => inferInstanceAs (Decidable (t = "string"))
  | .bytes _ => inferInstanceAs (Decidable (t = "bytes"))

namespace DataParser

variable {Cell F : Type} (py : Python Cell F) {ty : ElementType}

/-- What `append` gets, if the field takes it. -/
def appendCell (c : ArrayColumn ty) (cell : Cell) : Except PyError (Value F) := do
  match ← fieldValue py c.column cell with
  | some v => if Takes ty.name v then .ok v else .error .typeError
  | none => .error .typeError

/-- The values that a row appends, and the place of the cell at which it ends with an exception. -/
def parseArray : List (ArrayColumn ty × Cell) → List (Value F) × Option Nat
  | [] => ([], none)
  | (c, cell) :: row =>
    match appendCell py c cell with
    | .error _ => ([], some 0)
    | .ok v => (v :: (parseArray row).1, (parseArray row).2.map (· + 1))

end DataParser

/-! ## What append gets -/

def IsInt32 (n : Int) : Prop := -2 ^ 31 ≤ n ∧ n < 2 ^ 31

instance (n : Int) : Decidable (IsInt32 n) := inferInstanceAs (Decidable (_ ∧ _))

section
variable {Cell F : Type} {py : Python Cell F} {ty : ElementType}

theorem takes_int32 {n : Int} : Takes (F := F) "int32" (.int n) ↔ IsInt32 n := by
  have h1 : "int32" ∈ int32Types := by decide
  have h2 : "int32" ∉ int64Types := by decide
  have h3 : "int32" ∉ uint32Types := by decide
  have h4 : "int32" ∉ uint64Types := by decide
  have h5 : "int32" ∉ floatTypes := by decide
  simp only [Takes, h1, h2, h3, h4, h5, true_and, false_and, or_false]
  rfl

theorem takes_float {n : Int} : Takes (F := F) "float" (.int n) :=
  .inr (.inr (.inr (.inr (by decide))))

theorem not_takes_string {n : Int} : ¬ Takes (F := F) "string" (.int n) := by
  have h1 : "string" ∉ int32Types := by decide
  have h2 : "string" ∉ int64Types := by decide
  have h3 : "string" ∉ uint32Types := by decide
  have h4 : "string" ∉ uint64Types := by decide
  have h5 : "string" ∉ floatTypes := by decide
  simp [Takes, h1, h2, h3, h4, h5]

namespace DataParser

/-- The second conversion of an element and the check of `append`. -/
def appended (py : Python Cell F) (ty : ElementType) (v : Option (Value F)) : Except PyError (Value F) :=
  match element py v with
  | none => .error .cellError
  | some n => if Takes (F := F) ty.name (.int n) then .ok (.int n) else .error .typeError

theorem appendCell_eq (c : ArrayColumn ty) (cell : Cell) :
    appendCell py c cell = (getFieldValue py ty.name cell).bind (appended py ty) := by
  have hrule : c.column.protoRule = .repeated := if_pos c.isArray
  unfold appendCell fieldValue
  rw [if_neg (by simp [c.inScope]), hrule, c.fieldType]
  cases getFieldValue py ty.name cell with
  | error e => rfl
  | ok v =>
    show Except.bind (converted Value.int (element py v)) _ = appended py ty v
    unfold appended
    cases element py v <;> rfl

theorem getFieldValue_int32 (cell : Cell) : getFieldValue py "int32" cell =
    if strip (py.str cell) = [] then .ok none else converted .int (py.int cell) := if_pos (by decide)

theorem getFieldValue_float (cell : Cell) : getFieldValue py "float" cell =
    if strip (py.str cell) = [] then .ok none else converted .float (py.float cell) := by
  unfold getFieldValue
  rw [if_neg (by decide), if_pos (by decide)]

theorem getFieldValue_string (cell : Cell) : getFieldValue py "string" cell =
    .ok (if py.str cell = [] then none else some (.unicode (py.str cell))) := by
  unfold getFieldValue
  rw [if_neg (by decide), if_neg (by decide), if_pos rfl]

end DataParser

end

/-! ## What is to be appended -/

section
variable {Cell F : Type} (py : Python Cell F) [DecidableEq F]

/-- A cell is empty, has a value of the type, or is in error. -/
inductive Converted (F : Type) where
  | empty
  | value (v : Value F)
  | offending

/-- The number of the cell is `n` and has no fraction. -/
def IsWhole (cell : Cell) (n : Int) : Prop := py.float cell = py.floatOfInt n

instance (cell : Cell) (n : Int) : Decidable (IsWhole py cell n) := inferInstanceAs (Decidable (_ = _))

/-- The element that a cell stands for. In `strict` a fraction may not be cut off from an `int32`. -/
def convert (strict : Bool) (ty : ElementType) (cell : Cell) : Converted F :=
  match ty with
  | .int32 =>
    if strip (py.str cell) = [] then .empty
    else
      match py.int cell with
      | some n => if IsInt32 n ∧ (strict → IsWhole py cell n) then .value (.int n) else .offending
      | none => .offending
  | .float =>
    if strip (py.str cell) = [] then .empty
    else
      match py.float cell with
      | some x => .value (.float x)
      | none => .offending
  | .string => if py.str cell = [] then .empty else .value (.unicode (py.str cell))

/-- The values that a row is to append, and the place of the cell for which an error is to be reported. -/
def wanted (strict : Bool) (ty : ElementType) : List Cell → List (Value F) × Option Nat
  | [] => ([], none)
  | cell :: row =>
    match convert py strict ty cell with
    | .empty => ((wanted strict ty row).1, (wanted strict ty row).2.map (· + 1))
    | .value v => (v :: (wanted strict ty row).1, (wanted strict ty row).2.map (· + 1))
    | .offending => ([], some 0)

/-- A value that was appended is the one that was wanted; an `int` may stand for the `float` that it is equal to. -/
def Same : Value F → Value F → Prop
  | .int m, .int n => m = n
  | .int m, .float x => py.floatOfInt m = some x
  | .float x, .float y => x = y
  | .unicode s, .unicode t => s = t
  | _, _ => False

/-- The row appends what it should, and ends where it should. -/
def Exact (strict : Bool) (ty : ElementType) (row : List (ArrayColumn ty × Cell)) : Prop :=
  (DataParser.parseArray py row).2 = (wanted py strict ty (row.map Prod.snd)).2 ∧
    List.Forall₂ (Same py) (DataParser.parseArray py row).1 (wanted py strict ty (row.map Prod.snd)).1

/-! ## When it does -/

/-- A cell that survives both conversions. -/
def Survives (strict : Bool) (ty : ElementType) (cell : Cell) : Prop :=
  match ty with
  | .int32 => strip (py.str cell) ≠ [] ∧ ∃ n, py.int cell = some n ∧ IsInt32 n ∧ (strict → IsWhole py cell n)
  | .float => strip (py.str cell) ≠ [] ∧
      ∃ x m, py.float cell = some x ∧ py.intOfFloat x = some m ∧ py.floatOfInt m = some x
  | .string => False

/-- A cell that no element of the type can be made of, and that the parser does not take. -/
def Rejected (ty : ElementType) (cell : Cell) : Prop :=
  match ty with
  | .int32 => strip (py.str cell) ≠ [] ∧ ∀ n, py.int cell = some n → ¬ IsInt32 n
  | .float => strip (py.str cell) ≠ [] ∧ py.float cell = none
  | .string => False

/-- All cells survive, up to the first that is rejected. -/
def Fine (strict : Bool) (ty : ElementType) : List Cell → Prop
  | [] => True
  | cell :: row => Rejected py ty cell ∨ Survives py strict ty cell ∧ Fine strict ty row

/-- A `float` of Python holds every `int32`, and rounding does not bring another number into their range. -/
structure Doubles : Prop where
  exact : ∀ n, IsInt32 n → (py.floatOfInt n).bind py.intOfFloat = some n
  outside : ∀ n m, ¬ IsInt32 n → (py.floatOfInt n).bind py.intOfFloat = some m → ¬ IsInt32 m

/-! ## One cell -/

variable {py} {strict : Bool} {ty : ElementType} {cell : Cell}

open DataParser

theorem convert_int32 : convert py strict .int32 cell =
    if strip (py.str cell) = [] then .empty
    else
      match py.int cell with
      | some n => if IsInt32 n ∧ (strict → IsWhole py cell n) then .value (.int n) else .offending
      | none => .offending := rfl

theorem convert_float : convert py strict .float cell =
    if strip (py.str cell) = [] then .empty
    else
      match py.float cell with
      | some x => .value (.float x)
      | none => .offending := rfl

theorem convert_string : convert py strict .string cell =
    if py.str cell = [] then .empty else .value (.unicode (py.str cell)) := rfl

/-- The parser and the conversion come apart at a cell. -/
def Differ (py : Python Cell F) (r : Except PyError (Value F)) : Converted F → Prop
  | .empty => ∃ e, r = .error e
  | .value w => (∃ e, r = .error e) ∨ ∃ v, r = .ok v ∧ ¬ Same py v w
  | .offending => ∃ v, r = .ok v

/-- A cell survives and gives what is wanted, or it is rejected as it is to be, or the parser goes wrong there. -/
inductive CellCase (py : Python Cell F) (strict : Bool) (ty : ElementType) (cell : Cell)
    (r : Except PyError (Value F)) (w : Converted F) : Prop where
  | survives (v w' : Value F) : Survives py strict ty cell → ¬ Rejected py ty cell → r = .ok v → w = .value w' →
      Same py v w' → CellCase py strict ty cell r w
  | rejected (e : PyError) : Rejected py ty cell → r = .error e → w = .offending → CellCase py strict ty cell r w
  | wrong : ¬ Survives py strict ty cell → ¬ Rejected py ty cell → Differ py r w → CellCase py strict ty cell r w

theorem int32_case (hpy : Doubles py) (strict : Bool) (c : ArrayColumn .int32) (cell : Cell) :
    CellCase py strict .int32 cell (appendCell py c cell) (convert py strict .int32 cell) := by
  rw [appendCell_eq]
  show CellCase py strict .int32 cell (Except.bind (getFieldValue py "int32" cell) _) _
  rw [getFieldValue_int32, convert_int32]
  by_cases hempty : strip (py.str cell) = []
  · rw [if_pos hempty, if_pos hempty]
    exact .wrong (fun h => h.1 hempty) (fun h => h.1 hempty) ⟨_, rfl⟩
  rw [if_neg hempty, if_neg hempty]
  cases hint : py.int cell with
  | none =>
    exact .rejected .cellError ⟨hempty, fun n hn => by rw [hint] at hn; cases hn⟩ rfl rfl
  | some n =>
    have hr : Except.bind (converted Value.int (some n)) (appended py .int32) =
        match (py.floatOfInt n).bind py.intOfFloat with
        | none => .error .cellError
        | some n => if Takes (F := F) "int32" (.int n) then .ok (.int n) else .error .typeError := rfl
    rw [hr]
    by_cases hin : IsInt32 n
    · rw [hpy.exact n hin]
      have hok : (if Takes (F := F) "int32" (.int n) then .ok (.int n) else .error .typeError :
          Except PyError (Value F)) = .ok (.int n) := if_pos (takes_int32.mpr hin)
      have hnot : ¬ Rejected py .int32 cell := fun h => h.2 n hint hin
      by_cases hwhole : strict = true → IsWhole py cell n
      · exact .survives (.int n) (.int n) ⟨hempty, n, hint, hin, hwhole⟩ hnot hok (if_pos ⟨hin, hwhole⟩) rfl
      · refine .wrong (fun h => ?_) hnot ?_
        · obtain ⟨-, m, hm, -, hw⟩ := h
          rw [hint] at hm
          cases hm
          exact hwhole hw
        · have hoff : (if IsInt32 n ∧ (strict = true → IsWhole py cell n) then .value (.int n) else .offending :
              Converted F) = .offending := if_neg fun h => hwhole h.2
          dsimp only
          rw [hoff]
          exact ⟨.int n, hok⟩
    · have hrej : Rejected py .int32 cell := ⟨hempty, fun m hm => by rw [hint] at hm; cases hm; exact hin⟩
      have hoff : (if IsInt32 n ∧ (strict → IsWhole py cell n) then .value (.int n) else .offending : Converted F) =
          .offending := if_neg fun h => hin h.1
      cases hm : (py.floatOfInt n).bind py.intOfFloat with
      | none => exact .rejected _ hrej rfl hoff
      | some m => exact .rejected _ hrej (if_neg fun h => hpy.outside n m hin hm (takes_int32.mp h)) hoff

theorem float_case (strict : Bool) (c : ArrayColumn .float) (cell : Cell) :
    CellCase py strict .float cell (appendCell py c cell) (convert py strict .float cell) := by
  rw [appendCell_eq]
  show CellCase py strict .float cell (Except.bind (getFieldValue py "float" cell) _) _
  rw [getFieldValue_float, convert_float]
  by_cases hempty : strip (py.str cell) = []
  · rw [if_pos hempty, if_pos hempty]
    exact .wrong (fun h => h.1 hempty) (fun h => h.1 hempty) ⟨_, rfl⟩
  rw [if_neg hempty, if_neg hempty]
  cases hfloat : py.float cell with
  | none => exact .rejected .cellError ⟨hempty, hfloat⟩ rfl rfl
  | some x =>
    have hr : Except.bind (converted Value.float (some x)) (appended py .float) =
        match py.intOfFloat x with
        | none => .error .cellError
        | some n => if Takes (F := F) "float" (.int n) then .ok (.int n) else .error .typeError := rfl
    have hnot : ¬ Rejected py .float cell := fun h => by
      have := h.2
      rw [hfloat] at this
      cases this
    rw [hr]
    cases hm : py.intOfFloat x with
    | none =>
      refine .wrong (fun h => ?_) hnot (.inl ⟨_, rfl⟩)
      obtain ⟨-, y, m, hy, hm', -⟩ := h
      rw [hfloat] at hy
      cases hy
      rw [hm] at hm'
      cases hm'
    | some m =>
      by_cases hsame : py.floatOfInt m = some x
      · exact .survives (.int m) (.float x) ⟨hempty, x, m, hfloat, hm, hsame⟩ hnot (if_pos takes_float) rfl hsame
      · refine .wrong (fun h => ?_) hnot (.inr ⟨.int m, if_pos takes_float, hsame⟩)
        obtain ⟨-, y, n, hy, hn, hsame'⟩ := h
        rw [hfloat] at hy
        cases hy
        rw [hm] at hn
        cases hn
        exact hsame hsame'

/-- No cell of an array of strings gets through: what is appended is an `int`. -/
theorem string_case (strict : Bool) (c : ArrayColumn .string) (cell : Cell) :
    CellCase py strict .string cell (appendCell py c cell) (convert py strict .string cell) := by
  have herror : ∃ e, appendCell py c cell = .error e := by
    rw [appendCell_eq]
    show ∃ e, Except.bind (getFieldValue py "string" cell) _ = _
    rw [getFieldValue_string]
    show ∃ e, appended py .string _ = _
    unfold appended
    split
    · exact ⟨_, rfl⟩
    · exact ⟨_, if_neg not_takes_string⟩
  refine .wrong id id ?_
  rw [convert_string]
  by_cases hempty : py.str cell = []
  · rw [if_pos hempty]
    exact herror
  · rw [if_neg hempty]
    exact .inl herror

theorem cell_case (hpy : Doubles py) (strict : Bool) (c : ArrayColumn ty) (cell : Cell) :
    CellCase py strict ty cell (appendCell py c cell) (convert py strict ty cell) := by
  cases ty with
  | int32 => exact int32_case hpy strict c cell
  | float => exact float_case strict c cell
  | string => exact string_case strict c cell

/-! ## A row -/

theorem map_succ_ne_zero (k : Option Nat) : k.map (· + 1) ≠ some 0 := by
  cases k <;> simp

theorem map_succ_inj {k l : Option Nat} : k.map (· + 1) = l.map (· + 1) ↔ k = l := by
  cases k <;> cases l <;> simp

theorem not_exact_of_differ {c : ArrayColumn ty} {row : List (ArrayColumn ty × Cell)}
    (h : Differ py (appendCell py c cell) (convert py strict ty cell)) : ¬ Exact py strict ty ((c, cell) :: row) := by
  unfold Exact
  rw [List.map_cons, parseArray, wanted]
  intro he
  cases hc : convert py strict ty cell with
  | empty =>
    rw [hc] at h he
    obtain ⟨e, hr⟩ := h
    rw [hr] at he
    exact map_succ_ne_zero _ he.1.symm
  | value w =>
    rw [hc] at h he
    rcases h with ⟨e, hr⟩ | ⟨v, hr, hsame⟩
    · rw [hr] at he
      exact map_succ_ne_zero _ he.1.symm
    · rw [hr] at he
      exact hsame (List.forall₂_cons.mp he.2).1
  | offending =>
    rw [hc] at h he
    obtain ⟨v, hr⟩ := h
    rw [hr] at he
    exact map_succ_ne_zero _ he.1

/-- The elements are the values of the cells, and an error is reported for a cell without one, exactly when each cell
survives both conversions, up to the first that is rejected. -/
theorem array_exact_iff (hpy : Doubles py) (strict : Bool) (row : List (ArrayColumn ty × Cell)) :
    Exact py strict ty row ↔ Fine py strict ty (row.map Prod.snd) := by
  induction row with
  | nil => exact ⟨fun _ => trivial, fun _ => ⟨rfl, .nil⟩⟩
  | cons x row ih =>
    obtain ⟨c, cell⟩ := x
    rcases cell_case hpy strict c cell with ⟨v, w, hs, hn, hr, hc, hsame⟩ | ⟨e, hrej, hr, hc⟩ | ⟨hs, hn, hdiff⟩
    · have hcons : Exact py strict ty ((c, cell) :: row) ↔ Exact py strict ty row := by
        unfold Exact
        rw [List.map_cons, parseArray, wanted, hr, hc]
        show _ = _ ∧ List.Forall₂ _ (_ :: _) (_ :: _) ↔ _
        rw [map_succ_inj, List.forall₂_cons]
        exact and_congr_right fun _ => and_iff_right hsame
      rw [hcons, ih]
      exact ⟨fun h => .inr ⟨hs, h⟩, fun h => (h.resolve_left hn).2⟩
    · refine ⟨fun _ => .inl hrej, fun _ => ?_⟩
      unfold Exact
      rw [List.map_cons, parseArray, wanted, hr, hc]
      exact ⟨rfl, .nil⟩
    · refine ⟨fun h => absurd h (not_exact_of_differ hdiff), fun h => ?_⟩
      rcases h with h | h
      · exact absurd h hn
      · exact absurd h.1 hs

end

/-- Python on numbers with two binary digits behind the point: a cell is four times its number, and -1 is a text. -/
def quarters : Python Int Int where
  str _ := ['1']
  int cell := if cell = -1 then none else some (cell.tdiv 4)
  float cell := if cell = -1 then none else some cell
  floatOfInt n := some (4 * n)
  floatOfStr _ := none
  intOfFloat x := some (x.tdiv 4)
  mktime _ := none
  duration _ := none

theorem quarters_doubles : Doubles quarters := by
  have hround : ∀ n, (quarters.floatOfInt n).bind quarters.intOfFloat = some n := fun n => by
    show some ((4 * n).tdiv 4) = some n
    rw [Int.mul_tdiv_cancel_left n (by decide)]
  refine ⟨fun n _ => hround n, fun n m hn hm => ?_⟩
  rw [hround] at hm
  cases hm
  exact hn

def floatColumn : ArrayColumn .float where
  column := { name := "a", scope := "all", rule := "array_float" }
  inScope := by decide
  isArray := by decide
  fieldType := by decide

/-- 3, 2 and a text -/
theorem array_exact_iff_text :
    (DataParser.parseArray quarters [(floatColumn, 12), (floatColumn, 8), (floatColumn, -1)]).1 = [.int 3, .int 2] ∧
      Exact quarters true .float [(floatColumn, 12), (floatColumn, 8), (floatColumn, -1)] := by
  refine ⟨rfl, (array_exact_iff quarters_doubles true _).mpr ?_⟩
  have hone : strip ['1'] ≠ [] := by decide
  have hstr : ∀ cell, strip (quarters.str cell) ≠ [] := fun _ => hone
  exact .inr ⟨⟨hstr 12, 12, 3, rfl, rfl, rfl⟩, .inr ⟨⟨hstr 8, 8, 2, rfl, rfl, rfl⟩, .inl ⟨hstr (-1), rfl⟩⟩⟩

/-- 2.5 in an array of floats becomes 2. -/
theorem fraction_is_lost :
    DataParser.parseArray quarters [(floatColumn, 10)] = ([.int 2], none) ∧
      wanted quarters false .float [10] = ([.float 10], none) ∧ ¬ Exact quarters false .float [(floatColumn, 10)] := by
  have hparse : DataParser.parseArray quarters [(floatColumn, 10)] = ([.int 2], none) := rfl
  have hwanted : wanted quarters false .float [10] = ([.float 10], none) := rfl
  refine ⟨hparse, hwanted, fun h => ?_⟩
  have hsame := h.2
  rw [hparse] at hsame
  have hhead : Same quarters (.int 2) (.float 10) := (List.forall₂_cons.mp hsame).1
  have heq : (some 8 : Option Int) = some 10 := hhead
  cases heq

end GlobalServer.Excel
