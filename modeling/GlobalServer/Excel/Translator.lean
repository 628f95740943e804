import GlobalServer.Lib.Results
import Mathlib.Algebra.Ring.Int.Defs
import Mathlib.Data.List.Infix

/-!
# The translator of sheets

`SheetInterpreter` goes over the columns of a sheet and writes a field of a
message for each, or for the columns of an array together. `DataParser` goes
over the same columns in every row and sets the fields. Strings of Python and
the names in them are lists of characters.
-/

namespace GlobalServer.Excel

abbrev Str := List Char

/-- The three header rows of a column. -/
structure Column where
  name : String
  scope : String
  rule : String
  deriving DecidableEq

inductive PyError where
  | typeError
  /-- a cell that cannot be converted -/
  | cellError
  deriving DecidableEq

inductive ProtoRule where
  | optional | repeated
  deriving DecidableEq

/-- the characters that `strip` takes off -/
def isBlank (c : Char) : Bool := c ∈ [' ', '\t', '\n', '\r', '\x0b', '\x0c']

def strip (s : Str) : Str := ((s.dropWhile isBlank).reverse.dropWhile isBlank).reverse

namespace Column

/-! ## What both walkers make of a column -/

def inScope (c : Column) : Bool := c.scope = "all" ∨ c.scope = "server"

def isArray (c : Column) : Bool := "array".toList <+: c.rule.toList

/-- an array with an index behind its name -/
def isIndexed (c : Column) : Bool := c.isArray ∧ '[' ∈ c.name.toList

def fieldName (c : Column) : Str := if c.isIndexed then c.name.toList.takeWhile (· ≠ '[') else c.name.toList

def protoRule (c : Column) : ProtoRule := if c.isArray then .repeated else .optional

def elementType (rule : String) : String :=
  if "int32".toList <:+: rule.toList then "int32"
  else if "float".toList <:+: rule.toList then "float"
  else if "string".toList <:+: rule.toList then "string"
  else rule

def fieldType (c : Column) : String :=
  if "_dt".toList <:+ c.fieldName then "DateTime" else if c.isArray then elementType c.rule else c.rule

end Column

def int32Types : List String := ["int32", "sint32", "sfixed32"]
def int64Types : List String := ["int64", "sint64", "sfixed64"]
def uint32Types : List String := ["uint32", "fixed32"]
def uint64Types : List String := ["uint64", "fixed64"]
def floatTypes : List String := ["double", "float"]

def intTypes : List String := int32Types ++ int64Types ++ uint32Types ++ uint64Types

/-! ## SheetInterpreter -/

/-- A line of the message definition. -/
structure Declaration where
  fieldRule : ProtoRule
  fieldType : String
  fieldName : Str
  index : Nat
  default : Option Str
  deriving DecidableEq

/-- `_repeated_name_now`, which is a dictionary at first. -/
inductive RepeatedNameNow where
  | dict (names : List Str)
  | str (name : Str)
  deriving DecidableEq

/-- `name in names`, of a dictionary -/
def isIn (name : Str) (names : List Str) : Bool := name ∈ names

structure SheetInterpreter where
  repeatedNameNow : RepeatedNameNow := .dict []
  fieldIndex : Nat := 1
  output : List Declaration := []

/-- `field_name.find('=') > 0` -/
def hasDefault (fieldName : Str) : Bool := '=' ∈ fieldName ∧ fieldName.head? ≠ some '='

def declaration (fieldRule : ProtoRule) (fieldType : String) (fieldName : Str) (index : Nat) : Declaration :=
  if hasDefault fieldName then
    let nameAndValue := fieldName.splitOn '='
    { fieldRule, fieldType, fieldName := strip (nameAndValue.getD 0 []), index,
      default := some (strip (nameAndValue.getD 1 [])) }
  else if fieldRule ≠ .optional then { fieldRule, fieldType, fieldName, index, default := none }
  else if fieldType ∈ intTypes ++ floatTypes then { fieldRule, fieldType, fieldName, index, default := some ['0'] }
  else if fieldType = "string" ∨ fieldType = "bytes" then
    { fieldRule, fieldType, fieldName, index, default := some ['"', '"'] }
  else if fieldType = "DateTime" ∨ fieldType = "TimeDuration" then
    { fieldRule, fieldType := "uint64", fieldName, index, default := some ['0'] }
  else { fieldRule, fieldType, fieldName, index, default := none }

namespace SheetInterpreter

def layoutOneField (s : SheetInterpreter) (c : Column) : SheetInterpreter :=
  { s with
    output := s.output ++ [declaration c.protoRule c.fieldType c.fieldName s.fieldIndex]
    fieldIndex := s.fieldIndex + 1 }

def fieldDefine (s : SheetInterpreter) (c : Column) : Except PyError SheetInterpreter :=
  if ¬ c.inScope then .ok s
  else if c.isIndexed then
    match s.repeatedNameNow with
    | .dict names =>
      if isIn c.fieldName names then .ok s
      else .ok ({ s with repeatedNameNow := .dict (c.fieldName :: names) }.layoutOneField c)
    -- of a string, `in` asks for a part of it, and no item can be assigned
    | .str name => if c.fieldName <:+: name then .ok s else .error .typeError
  else if c.isArray then .ok ({ s with repeatedNameNow := .str c.fieldName }.layoutOneField c)
  else .ok (s.layoutOneField c)

/-- `interpreted`, for its definitions -/
def interpreted (header : List Column) : Except PyError (List Declaration) := do
  let s ← header.foldlM fieldDefine {}
  return s.output

end SheetInterpreter

/-! ## DataParser -/

inductive Value (F : Type) where
  | int (n : Int)
  | float (x : F)
  | unicode (s : Str)
  | bytes (s : Str)

/-- What Python makes of a cell, of a number and of a string; `none` is an exception. -/
structure Python (Cell F : Type) where
  str : Cell → Str
  int : Cell → Option Int
  float : Cell → Option F
  floatOfInt : Int → Option F
  floatOfStr : Str → Option F
  intOfFloat : F → Option Int
  /-- `strptime` and `mktime` -/
  mktime : Str → Option Int
  /-- `tm_yday` and `tm_hour` of a duration -/
  duration : Str → Option (Int × Int)

/-- What is assigned to a field, or appended to it; `none` when it cannot be made after the field has been looked up. -/
structure Write (F : Type) where
  protoRule : ProtoRule
  fieldName : Str
  value : Option (Value F)

namespace DataParser

variable {Cell F : Type} (py : Python Cell F)

/-- A conversion that may raise. -/
def converted {α β : Type} (f : α → β) : Option α → Except PyError (Option β)
  | none => .error .cellError
  | some a => .ok (some (f a))

def getFieldValue (fieldType : String) (cell : Cell) : Except PyError (Option (Value F)) :=
  if fieldType ∈ intTypes then if strip (py.str cell) = [] then .ok none else converted .int (py.int cell)
  else if fieldType ∈ floatTypes then if strip (py.str cell) = [] then .ok none else converted .float (py.float cell)
  else if fieldType = "string" then .ok (if py.str cell = [] then none else some (.unicode (py.str cell)))
  else if fieldType = "bytes" then .ok (if py.str cell = [] then none else some (.bytes (py.str cell)))
  else if fieldType = "DateTime" then
    if py.str cell = [] then .ok (some (.int 0)) else converted .int (py.mktime (py.str cell))
  else if fieldType = "TimeDuration" then
    if py.str cell = [] then .ok (some (.int 0))
    else converted (fun t => .int (3600 * (t.1 * 24 + t.2))) (py.duration (py.str cell))
  else .ok none

/-- `int(float(field_value))` -/
def element : Option (Value F) → Option Int
  | none => none
  | some (.int n) => (py.floatOfInt n).bind py.intOfFloat
  | some (.float x) => py.intOfFloat x
  | some (.unicode s) | some (.bytes s) => (py.floatOfStr s).bind py.intOfFloat

/-- What `_ParseField` sets the field of the column to. -/
def fieldValue (c : Column) (cell : Cell) : Except PyError (Option (Value F)) :=
  if ¬ c.inScope then .ok none
  else do
    let fieldValue ← getFieldValue py c.fieldType cell
    match c.protoRule with
    | .optional => .ok fieldValue
    | .repeated => converted .int (element py fieldValue)

/-- The first column with a name, else the last. -/
def idCol (header : List Column) : Nat :=
  (header.findIdx? fun c => strip c.name.toList ≠ []).getD (header.length - 1)

/-- The cells of the rows that have an id, in the order in which `Parse` comes to them. -/
def cells (header : List Column) (rows : List (List Cell)) : List (Column × Cell) :=
  (rows.filter fun row => row[idCol header]?.any fun cell => strip (py.str cell) ≠ []).flatMap header.zip

/-- The field of an array is looked up before an element is made of what `_GetFieldValue` gives. -/
def looksUp (c : Column) (cell : Cell) : Bool :=
  match c.protoRule, getFieldValue py c.fieldType cell with
  | .repeated, .ok _ => true
  | _, _ => false

/-- What the cells are converted to; the first that cannot be converted ends the parser. -/
def values : List (Column × Cell) → List (Column × Option (Value F))
  | [] => []
  | (c, cell) :: cells =>
    match fieldValue py c cell with
    | .error _ => if looksUp py c cell then [(c, none)] else []
    | .ok none => values cells
    | .ok (some v) => (c, some v) :: values cells

/-- `Parse`, for what it sets -/
def parse (header : List Column) (rows : List (List Cell)) : List (Write F) :=
  (values py (cells py header rows)).map fun x =>
    { protoRule := x.1.protoRule, fieldName := x.1.fieldName, value := x.2 }

end DataParser

/-! ## What protoc reads -/

/-- Where the tokenizer is. -/
inductive Place where
  | text | lineComment | blockComment

/-- A blank for each comment; `none` when one is not closed, or opened in another. -/
def uncomment : Place → Str → Option Str
  | .text, '/' :: '/' :: s => (uncomment .lineComment s).map (' ' :: ·)
  | .text, '/' :: '*' :: s => (uncomment .blockComment s).map (' ' :: ·)
  | .text, a :: s => (uncomment .text s).map (a :: ·)
  | .text, [] => some []
  | .lineComment, '\n' :: s => uncomment .text s
  | .lineComment, a :: s => if a = '\x00' then none else uncomment .lineComment s
  | .lineComment, [] => none
  | .blockComment, '*' :: '/' :: s => uncomment .text s
  | .blockComment, '/' :: '*' :: _ => none
  | .blockComment, a :: s => if a = '\x00' then none else uncomment .blockComment s
  | .blockComment, [] => none

def isLetter (a : Char) : Bool := a.isAlpha || a = '_'

def isAlphanumeric (a : Char) : Bool := a.isAlphanum || a = '_'

/-- a token of type `TYPE_IDENTIFIER` -/
def isIdentifier : Str → Bool
  | [] => false
  | a :: s => isLetter a && s.all isAlphanumeric

/-- What `ConsumeIdentifier` takes for the name of a field, when nothing but the name may stand there. -/
def consumeIdentifier (s : Str) : Option Str :=
  match uncomment .text s with
  | none => none
  | some t => if isIdentifier (strip t) then some (strip t) else none

def scalarTypes : List String := intTypes ++ floatTypes ++ ["bool", "string", "bytes"]

/-- What protoc knows besides: the names of messages, and which texts are default values of a type. -/
structure Protoc where
  isType : String → Bool
  isDefault : String → Str → Bool

namespace Protoc

variable (protoc : Protoc)

def takesType (fieldType : String) : Bool := fieldType ∈ scalarTypes ∨ protoc.isType fieldType

def takesDefault (fieldType : String) (value : Str) : Bool :=
  (fieldType ∈ intTypes ++ floatTypes ∧ value = ['0']) ∨
    ((fieldType = "string" ∨ fieldType = "bytes") ∧ value = ['"', '"']) ∨ protoc.isDefault fieldType value

/-- A repeated field has no default value. -/
def readLine (d : Declaration) : Option Declaration :=
  if protoc.takesType d.fieldType ∧ ∀ v ∈ d.default, d.fieldRule = .optional ∧ protoc.takesDefault d.fieldType v then
    (consumeIdentifier d.fieldName).map fun name => { d with fieldName := name }
  else none

/-- The fields of the message; there is none when a line cannot be read. -/
def fields (ds : List Declaration) : Option (List Declaration) := ds.mapM protoc.readLine

end Protoc

/-! ## What the generated classes take -/

/-- The values that a field of a type takes. A type that is not defined has none. -/
def Takes {F : Type} (fieldType : String) : Value F → Prop
  | .int n =>
    (fieldType ∈ int32Types ∧ -2 ^ 31 ≤ n ∧ n < 2 ^ 31) ∨ (fieldType ∈ int64Types ∧ -2 ^ 63 ≤ n ∧ n < 2 ^ 63) ∨
      (fieldType ∈ uint32Types ∧ 0 ≤ n ∧ n < 2 ^ 32) ∨ (fieldType ∈ uint64Types ∧ 0 ≤ n ∧ n < 2 ^ 64) ∨
      fieldType ∈ floatTypes
  | .float _ => fieldType ∈ floatTypes
  | .unicode _ => fieldType = "string"
  | .bytes _ => fieldType = "bytes"

/-- A field takes what is assigned to it if it is optional, and what is appended if it is repeated. -/
def Declaration.Accepts {F : Type} (d : Declaration) (w : Write F) : Prop :=
  d.fieldName = w.fieldName ∧ d.fieldRule = w.protoRule ∧ ∀ v ∈ w.value, Takes d.fieldType v

/-- The name in the line of a column. -/
def Column.lineName (c : Column) : Str :=
  if hasDefault c.fieldName then strip (c.fieldName.takeWhile (· ≠ '=')) else c.fieldName

/-- The name of the field of a column, if there can be one. -/
def Column.declaredName (c : Column) : Option Str := consumeIdentifier c.lineName

/-- The interpreter declares each field once, in lines that protoc reads, and the fields take what the parser sets. -/
def Agree {Cell F : Type} (protoc : Protoc) (py : Python Cell F) (header : List Column) (rows : List (List Cell)) :
    Prop :=
  ∃ ds fields, SheetInterpreter.interpreted header = .ok ds ∧ protoc.fields ds = some fields ∧
    (∀ c ∈ header, c.inScope → ∃ name ∈ c.declaredName, (fields.map Declaration.fieldName).count name = 1) ∧
    ∀ w ∈ DataParser.parse py header rows, ∃ d ∈ fields, d.Accepts w

end GlobalServer.Excel
