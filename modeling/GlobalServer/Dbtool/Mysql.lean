import GlobalServer.Dbtool.Conf
import Mathlib.Data.List.Nodup
import Mathlib.Logic.Function.Basic

/-!
# Tables and the statements that change them

The server that dbtool talks to: tables with their columns and keys, and the
statements of data definition that dbtool sends, with the effect they are
documented to have. A statement that would leave a table that is not legal is
refused.
-/

namespace GlobalServer.Dbtool

/-! ## Tables -/

/-- What follows the name in the definition of a column. -/
structure ColumnDef where
  type : String
  notNull : Bool := false
  autoIncr : Bool := false
  default : String := ""
  deriving DecidableEq

/-- A column with what it holds: `data` is a mark that the data keep when a column is renamed or converted, `none` for
a column without any. -/
structure Column (δ : Type) where
  name : String
  defn : ColumnDef
  data : Option δ
  deriving DecidableEq

structure Key where
  name : String
  kind : MysqlKeyType
  columns : List String
  deriving DecidableEq

def primaryColumns (ks : List Key) : List String := ks.flatMap fun k => if k.kind = .primary then k.columns else []

variable {δ : Type}

/-- The columns that are NOT NULL whether their definition says so or not. -/
def Column.implied (ks : List Key) (c : Column δ) : Bool := c.defn.autoIncr || c.name ∈ primaryColumns ks

/-- The column as it is in a table with these keys. -/
def Column.settle (ks : List Key) (c : Column δ) : Column δ :=
  { c with defn.notNull := c.defn.notNull || c.implied ks }

structure Legal (cs : List (Column δ)) (ks : List Key) : Prop where
  nonempty : cs ≠ []
  names : (cs.map Column.name).Nodup
  keyNames : (ks.map Key.name).Nodup
  keyColumns : ∀ k ∈ ks, k.columns ≠ [] ∧ k.columns.Nodup ∧ ∀ c ∈ k.columns, c ∈ cs.map Column.name
  primary : ∀ k ∈ ks, k.kind = .primary ↔ k.name = "PRIMARY"
  notNull : ∀ c ∈ cs, c.implied ks = true → c.defn.notNull = true
  oneAutoIncr : (cs.filter fun c => c.defn.autoIncr).length ≤ 1
  autoIncrKey : ∀ c ∈ cs, c.defn.autoIncr = true → ∃ k ∈ ks, c.name ∈ k.columns

instance (cs : List (Column δ)) (ks : List Key) : Decidable (Legal cs ks) :=
  decidable_of_iff (cs ≠ [] ∧ (cs.map Column.name).Nodup ∧ (ks.map Key.name).Nodup ∧
    (∀ k ∈ ks, k.columns ≠ [] ∧ k.columns.Nodup ∧ ∀ c ∈ k.columns, c ∈ cs.map Column.name) ∧
    (∀ k ∈ ks, k.kind = .primary ↔ k.name = "PRIMARY") ∧
    (∀ c ∈ cs, c.implied ks = true → c.defn.notNull = true) ∧ (cs.filter fun c => c.defn.autoIncr).length ≤ 1 ∧
    (∀ c ∈ cs, c.defn.autoIncr = true → ∃ k ∈ ks, c.name ∈ k.columns))
    ⟨fun ⟨a, b, c, d, e, f, g, h⟩ => ⟨a, b, c, d, e, f, g, h⟩, fun ⟨a, b, c, d, e, f, g, h⟩ => ⟨a, b, c, d, e, f, g, h⟩⟩

/-- A table of the server, which is always a legal one. -/
@[ext]
structure Table (δ : Type) where
  columns : List (Column δ)
  keys : List Key
  legal : Legal columns keys

instance [DecidableEq δ] : DecidableEq (Table δ) := fun _ _ => decidable_of_iff _ Table.ext_iff.symm

namespace Table

def names (t : Table δ) : List String := t.columns.map Column.name

def keyNames (t : Table δ) : List String := t.keys.map Key.name

/-- The table with these columns and keys, if there can be one. -/
def make (cs : List (Column δ)) (ks : List Key) : Option (Table δ) :=
  if h : Legal (cs.map (Column.settle ks)) ks then some ⟨cs.map (Column.settle ks), ks, h⟩ else none

theorem make_eq_some {cs : List (Column δ)} {ks : List Key} {t : Table δ} (h : make cs ks = some t) :
    t.columns = cs.map (Column.settle ks) ∧ t.keys = ks := by
  unfold make at h
  split at h
  · cases h
    exact ⟨rfl, rfl⟩
  · cases h

end Table

/-! ## Statements -/

/-- The clauses of ALTER TABLE. -/
inductive Alter where
  | dropColumns (names : List String)
  | change (old new type : String)
  | modify (name type : String)
  | addColumn (name type : String) (after : Option String)
  | addKey (key : TableKey)
  | dropKey (name : String)
  deriving DecidableEq

inductive Stmt where
  | createTable (name : String) (columns : List (String × ColumnDef)) (keys : List TableKey)
  | createLike (new old : String)
  | dropTable (name : String)
  | alter (table : String) (a : Alter)
  deriving DecidableEq

/-- The key that a key of the configuration asks for. A primary key is not given a name. -/
def TableKey.key (k : TableKey) : Key :=
  { name := if k.getType = .primary then "PRIMARY" else k.name, kind := k.getType, columns := k.fields }

/-- A column that is dropped leaves the keys it is in, and a key without columns is gone. -/
def Key.without (names : List String) (k : Key) : Option Key :=
  let cs := k.columns.filter (· ∉ names)
  if cs = [] then none else some { k with columns := cs }

/-- `new` in the place of `old` -/
def rename (old new name : String) : String := if name = old then new else name

def insertAfter (c : Column δ) (after : Option String) (cs : List (Column δ)) : Option (List (Column δ)) :=
  match after with
  | none => some (c :: cs)
  | some a => if a ∈ cs.map Column.name then some (cs.flatMap fun d => if d.name = a then [d, c] else [d]) else none

/-- The documented effect: a whole definition replaces the one that a column has, and the data stay. -/
def Alter.apply (t : Table δ) : Alter → Option (Table δ)
  | dropColumns names =>
    if ∀ n ∈ names, n ∈ t.names then
      Table.make (t.columns.filter fun c => c.name ∉ names) (t.keys.filterMap (Key.without names))
    else none
  | change old new type =>
    if old ∈ t.names then
      Table.make (t.columns.map fun c => if c.name = old then { c with name := new, defn := { type } } else c)
        (t.keys.map fun k => { k with columns := k.columns.map (rename old new) })
    else none
  | modify name type =>
    if name ∈ t.names then Table.make (t.columns.map fun c => if c.name = name then { c with defn := { type } } else c) t.keys
    else none
  | addColumn name type after =>
    (insertAfter { name, defn := { type }, data := none } after t.columns).bind fun cs => Table.make cs t.keys
  | addKey key => Table.make t.columns (t.keys ++ [key.key])
  | dropKey name => if name ∈ t.keyNames then Table.make t.columns (t.keys.filter fun k => k.name ≠ name) else none

abbrev Tables (δ : Type) := String → Option (Table δ)

def Stmt.effect (s : Tables δ) : Stmt → Option (Tables δ)
  | createTable name columns keys =>
    if s name = none then
      (Table.make (columns.map fun c => { name := c.1, defn := c.2, data := none }) (keys.map TableKey.key)).map
        fun t => Function.update s name (some t)
    else none
  | createLike new old =>
    if s new = none then
      (s old).bind fun t => (Table.make (t.columns.map fun c => { c with data := none }) t.keys).map
        fun t => Function.update s new (some t)
    else none
  | dropTable name => (s name).map fun _ => Function.update s name none
  | alter name a => (s name).bind fun t => (a.apply t).map fun t => Function.update s name (some t)

/-! ## What dbtool sends, as text -/

def fieldTypeDesc (field : TableField) (type : MysqlFieldType) : String :=
  match type with
  | .tinyInt => "TINYINT"
  | .int => "INT"
  | .uInt => "INT UNSIGNED"
  | .bigInt => "BIGINT"
  | .double => "DOUBLE"
  | .varchar => "VARCHAR(" ++ toString field.varcharLen.toNat ++ ")"
  | .blob => "BLOB"
  | .mediumBlob => "MEDIUMBLOB"
  | .text => "TEXT"
  | .date => "DATE"
  | .time => "TIME"
  | .timeStamp => "TIMESTAMP"

def getFieldTypeDesc (field : TableField) : String := fieldTypeDesc field field.getType

def getFieldModifyTypeDesc (field : TableField) : String := fieldTypeDesc field field.getModifyType

def keyColumns : List String → String
  | [] => ""
  | [f] => "`" ++ f ++ "`"
  | f :: fs => "`" ++ f ++ "`" ++ ", " ++ keyColumns fs

def getFieldKeyDesc (key : TableKey) : String :=
  (match key.getType with
    | .primary => "PRIMARY KEY("
    | .normal => "KEY `" ++ key.name ++ "`("
    | .unique => "UNIQUE KEY `" ++ key.name ++ "`(") ++ keyColumns key.fields ++ ")"

def columnText (c : String × ColumnDef) : String :=
  "`" ++ c.1 ++ "` " ++ c.2.type ++ (if c.2.notNull then " NOT NULL" else "") ++
    (if c.2.autoIncr then " AUTO_INCREMENT" else "") ++
    (if c.2.default ≠ "" then " DEFAULT '" ++ c.2.default ++ "'" else "")

def Alter.text (table : String) : Alter → String
  | dropColumns names => "ALTER TABLE " ++ table ++ ", ".intercalate (names.map fun n => " DROP COLUMN " ++ n) ++ ";"
  | change old new type => "ALTER TABLE " ++ table ++ " CHANGE " ++ old ++ " " ++ new ++ " " ++ type ++ ";"
  | modify name type => "ALTER TABLE " ++ table ++ " MODIFY " ++ name ++ " " ++ type ++ ";"
  | addColumn name type after =>
    "ALTER TABLE " ++ table ++ " ADD COLUMN `" ++ name ++ "`" ++ " " ++ type ++
      (match after with
        | none => " FIRST"
        | some a => " AFTER " ++ "`" ++ a ++ "`") ++ ";"
  | addKey key => "ALTER TABLE " ++ table ++ " ADD " ++ getFieldKeyDesc key
  | dropKey name =>
    "ALTER TABLE " ++ table ++ (if name = "PRIMARY" then " DROP PRIMARY KEY" else " DROP INDEX " ++ name)

def Stmt.text : Stmt → String
  | createTable name columns keys =>
    "CREATE TABLE " ++ name ++ "(" ++ ", ".intercalate (columns.map columnText) ++
      String.join (keys.map fun k => ", " ++ getFieldKeyDesc k) ++ ") CHARACTER SET utf8 COLLATE utf8_unicode_ci;"
  | createLike new old => "CREATE TABLE " ++ new ++ " like " ++ old
  | dropTable name => "DROP TABLE " ++ name
  | alter table a => a.text table

/-- The names that stand in the text without quotes. -/
def Alter.bare : Alter → List String
  | dropColumns names => names
  | change old new _ => [old, new]
  | modify name _ => [name]
  | addColumn _ _ _ => []
  | addKey _ => []
  | dropKey name => if name = "PRIMARY" then [] else [name]

def Stmt.bare : Stmt → List String
  | createTable name _ _ => [name]
  | createLike new old => [new, old]
  | dropTable name => [name]
  | alter table a => table :: a.bare

end GlobalServer.Dbtool
