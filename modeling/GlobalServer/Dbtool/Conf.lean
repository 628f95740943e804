import GlobalServer.Lib.OrdMap
import Mathlib.Data.String.Basic

/-!
# The configuration of dbtool and its check

The messages of the configuration file, and the check that runs over all of
them before anything is done. The check rewrites the names of primary keys.
-/

namespace GlobalServer.Dbtool

inductive MysqlFieldType where
  | tinyInt | int | uInt | bigInt | double | varchar | blob | mediumBlob | text | date | time | timeStamp
  deriving DecidableEq

def MysqlFieldType.number : MysqlFieldType → Nat
  | tinyInt => 1 | int => 2 | uInt => 3 | bigInt => 4 | double => 5 | varchar => 6 | blob => 7 | mediumBlob => 8
  | text => 9 | date => 10 | time => 11 | timeStamp => 12

inductive MysqlKeyType where
  | primary | normal | unique
  deriving DecidableEq

def MysqlKeyType.number : MysqlKeyType → Nat
  | primary => 1 | normal => 2 | unique => 3

/-- A field with an `Option` is one whose presence is asked for. -/
structure TableField where
  name : String := ""
  type : Option MysqlFieldType := none
  notNull : Bool := false
  autoIncr : Option Bool := none
  default : String := ""
  renameFrom : Option String := none
  modifyType : Option MysqlFieldType := none
  varcharLen : UInt32 := 255
  isDelete : Bool := false
  deriving DecidableEq

structure TableKey where
  name : String := ""
  type : Option MysqlKeyType := none
  fields : List String := []
  deriving DecidableEq

structure MysqlTable where
  tableName : String := ""
  fields : List TableField := []
  keys : List TableKey := []
  deriving DecidableEq

structure MysqlSchema where
  schemaName : String := ""
  tables : List MysqlTable := []

structure MysqlSchemaConf where
  mysqlSchemas : List MysqlSchema := []

-- an absent enumeration reads as its first value
def TableField.getType (f : TableField) : MysqlFieldType := f.type.getD .tinyInt
def TableField.getModifyType (f : TableField) : MysqlFieldType := f.modifyType.getD .tinyInt
def TableField.getAutoIncr (f : TableField) : Bool := f.autoIncr.getD false
def TableKey.getType (k : TableKey) : MysqlKeyType := k.type.getD .primary

/-! ## CheckMysqlSyntax -/

/-- What the check stops at, with the name it reports. -/
inductive SyntaxError where
  | duplicateField (field : String)
  | exclusive (field : String)
  | renameFromItself (field : String)
  | noFieldType (field : String)
  | illegalFieldType (field : String)
  | autoIncrType (field : String)
  | duplicateKey (key : String)
  | noKeyType (key : String)
  | illegalKeyType (key : String)
  | twoPrimaryKeys
  | emptyKey (key : String)
  | illegalKeyField (keyField key : String)
  | duplicateKeyField (keyField key : String)
  | autoIncrNotKey (field : String)
  deriving DecidableEq

abbrev FieldMap := List (String × TableField)
abbrev KeyMap := List (String × TableKey)

/-- the types that the check lets `auto_incr` stand with -/
def MysqlFieldType.takesAutoIncr : MysqlFieldType → Bool
  | tinyInt | int | uInt | bigInt | double => true
  | _ => false

/-- The body of the loop over the fields. -/
def checkField (m : FieldMap) (f : TableField) : Except SyntaxError Unit :=
  let tmp := (if f.renameFrom.isSome then 1 else 0) + (if f.modifyType.isSome then 1 else 0)
  if f.name ∈ m.map Prod.fst then .error (.duplicateField f.name)
  else if 2 ≤ tmp then .error (.exclusive f.name)
  else if f.renameFrom = some f.name then .error (.renameFromItself f.name)
  else if f.type = none then .error (.noFieldType f.name)
  else if f.getType.number < MysqlFieldType.tinyInt.number ∨ MysqlFieldType.timeStamp.number < f.getType.number then
    .error (.illegalFieldType f.name)
  else if f.autoIncr.isSome ∧ f.getType.takesAutoIncr = false then .error (.autoIncrType f.name)
  else .ok ()

def checkFields : List TableField → FieldMap → Except SyntaxError FieldMap
  | [], m => .ok m
  | f :: fs, m => do
    checkField m f
    checkFields fs (OrdMap.assign f.name f m)

def checkKeyFields (m : FieldMap) (key : String) : List String → List String → Except SyntaxError Unit
  | [], _ => .ok ()
  | f :: fs, set =>
    if f ∉ m.map Prod.fst then .error (.illegalKeyField f key)
    else if f ∈ set then .error (.duplicateKeyField f key)
    else checkKeyFields m key fs (f :: set)

/-- The key as the check leaves it. -/
def TableKey.renamed (k : TableKey) : TableKey := if k.getType = .primary then { k with name := "PRIMARY" } else k

/-- The body of the loop over the keys: `keys` holds them under the names that they had in the file, `cnt` is the
number of primary keys with this one. -/
def checkKey (m : FieldMap) (keys : KeyMap) (cnt : Nat) (k : TableKey) : Except SyntaxError Unit :=
  if k.name ∈ keys.map Prod.fst then .error (.duplicateKey k.name)
  else if k.type = none then .error (.noKeyType k.name)
  else if k.getType.number < MysqlKeyType.primary.number ∨ MysqlKeyType.unique.number < k.getType.number then
    .error (.illegalKeyType k.name)
  else if 1 < cnt then .error .twoPrimaryKeys
  else if k.fields = [] then .error (.emptyKey k.renamed.name)
  else checkKeyFields m k.renamed.name k.fields []

def checkKeys (m : FieldMap) : List TableKey → KeyMap → Nat → Except SyntaxError KeyMap
  | [], keys, _ => .ok keys
  | k :: ks, keys, cnt => do
    let cnt := if k.getType = .primary then cnt + 1 else cnt
    checkKey m keys cnt k
    checkKeys m ks (OrdMap.assign k.name k.renamed keys) cnt

def checkAutoIncr (keys : KeyMap) : FieldMap → Except SyntaxError Unit
  | [] => .ok ()
  | f :: fs =>
    if f.2.autoIncr.isSome ∧ ¬ ∃ k ∈ keys, f.1 ∈ k.2.fields then .error (.autoIncrNotKey f.1)
    else checkAutoIncr keys fs

def checkTable (t : MysqlTable) : Except SyntaxError MysqlTable := do
  let m ← checkFields t.fields []
  let keys ← checkKeys m t.keys [] 0
  checkAutoIncr keys m
  return { t with keys := t.keys.map TableKey.renamed }

def checkSchema (s : MysqlSchema) : Except SyntaxError MysqlSchema := do
  return { s with tables := ← s.tables.mapM checkTable }

def checkMysqlSyntax (cfg : MysqlSchemaConf) : Except SyntaxError MysqlSchemaConf := do
  return { cfg with mysqlSchemas := ← cfg.mysqlSchemas.mapM checkSchema }

end GlobalServer.Dbtool
