import GlobalServer.Dbtool.Mysql
import GlobalServer.Lib.Weave

/-!
# MysqlExecutor

What dbtool does with one table of a configuration that has passed the check.
The server may turn down any request; which ones is a parameter, as is what it
takes for a name without quotes.
-/

namespace GlobalServer.Dbtool

/-- `refuse n`: the server turns the `n`-th request of the connection down, for a reason that is not in the tables. -/
structure Mysql where
  refuse : Nat → Bool
  plain : String → Bool

/-- a server that turns nothing down -/
def Mysql.calm : Mysql where
  refuse := fun _ => false
  plain := fun _ => true

/-- A connection: the tables of its schema, the number of requests so far, and the statements that the server has
carried out, each with the tables after it. -/
structure Conn (δ : Type) where
  tables : Tables δ
  asked : Nat := 0
  done : List (Stmt × Tables δ) := []

variable {δ : Type}

namespace Mysql

/-! ## Requests -/

def accepts (my : Mysql) (db : Conn δ) (st : Stmt) : Option (Tables δ) :=
  if my.refuse db.asked = false ∧ ∀ n ∈ st.bare, my.plain n then st.effect db.tables else none

/-- `SqlConnection::Execute`, which returns 0 on success. -/
def execute (my : Mysql) (st : Stmt) (db : Conn δ) : Int × Conn δ :=
  match my.accepts db st with
  | none => (1, { db with asked := db.asked + 1 })
  | some s => (0, { tables := s, asked := db.asked + 1, done := db.done ++ [(st, s)] })

/-- `SqlConnection::Query` with what it reads, nothing when it fails. -/
def query {α : Type} (my : Mysql) (read : Tables δ → List α) (db : Conn δ) : (Int × List α) × Conn δ :=
  if my.refuse db.asked then ((1, []), { db with asked := db.asked + 1 })
  else ((0, read db.tables), { db with asked := db.asked + 1 })

/-- A loop that sends one statement after the other and returns -1 at the first that fails. -/
def executeEach (my : Mysql) : List Stmt → Conn δ → Int × Conn δ
  | [], db => (0, db)
  | st :: l, db =>
    let r := my.execute st db
    if r.1 ≠ 0 then (-1, r.2) else my.executeEach l r.2

def getTableFields (my : Mysql) (table : MysqlTable) (db : Conn δ) : (Int × List String) × Conn δ :=
  my.query (fun s => ((s table.tableName).map Table.names).getD []) db

/-- The names of the keys, each once and in order. -/
def getTableKeys (my : Mysql) (table : MysqlTable) (db : Conn δ) : (Int × List String) × Conn δ :=
  let r := my.query (fun s => ((s table.tableName).map Table.keyNames).getD []) db
  ((r.1.1, (OrdMap.ofList (r.1.2.map fun n => (n, ()))).map Prod.fst), r.2)

end Mysql

/-! ## What is to be done to a table with these columns -/

namespace MysqlTable

def columnDef (f : TableField) : ColumnDef :=
  { type := getFieldTypeDesc f, notNull := f.notNull, autoIncr := f.getAutoIncr, default := f.default }

/-- the fields that are not deleted -/
def liveFields (t : MysqlTable) : List TableField := t.fields.filter fun f => !f.isDelete

/-- The columns of CREATE TABLE. -/
def newColumns (t : MysqlTable) : List (String × ColumnDef) := t.liveFields.map fun f => (f.name, columnDef f)

def wantDelFields (t : MysqlTable) (tableFields : List String) : List String :=
  ((t.fields.filter fun f => f.isDelete).map TableField.name).filter (· ∈ tableFields)

/-- Of two fields with the same old name the later one counts. -/
def renames (t : MysqlTable) : FieldMap :=
  OrdMap.ofList (t.fields.filterMap fun f => f.renameFrom.map fun old => (old, f))

def wantRenameFields (t : MysqlTable) (tableFields : List String) : FieldMap :=
  t.renames.filter fun x => x.1 ∈ tableFields

def wantModifyFields (t : MysqlTable) (tableFields : List String) : FieldMap :=
  (OrdMap.ofList ((t.fields.filter fun f => f.modifyType.isSome).map fun f => (f.name, f))).filter
    fun x => x.1 ∈ tableFields

/-- `insert_fields`, the names of the fields that the table is to have. -/
def insertFields (t : MysqlTable) : List String := t.liveFields.map TableField.name

def insertFieldMap (t : MysqlTable) : FieldMap := OrdMap.ofList (t.liveFields.map fun f => (f.name, f))

/-- The merge of the columns of the table with those it is to have. -/
def newTableFields (tableFields insertFields : List String) : List String := Weave.merge tableFields insertFields

/-- The statements of the last loop of `AddTableColumn`; `before` is the name in front of the rest of the new fields. -/
def addClauses (t : MysqlTable) (old : List String) : Option String → List String → List Alter
  | _, [] => []
  | before, n :: l =>
    (if n ∈ old then [] else
      [.addColumn n ((t.insertFieldMap.lookup n).elim "" getFieldTypeDesc) before]) ++ t.addClauses old (some n) l

end MysqlTable

namespace Mysql

/-! ## The steps of a migration -/

def createNewTable (my : Mysql) (table : MysqlTable) (db : Conn δ) : Int × Conn δ :=
  my.execute (.createTable table.tableName table.newColumns table.keys) db

def dropTable (my : Mysql) (name : String) (db : Conn δ) : Int × Conn δ :=
  (0, (my.execute (.dropTable name) db).2)

def copyTable (my : Mysql) (newname oldname : String) (db : Conn δ) : Int × Conn δ :=
  let db := (my.dropTable newname db).2
  let r := my.execute (.createLike newname oldname) db
  if r.1 ≠ 0 then (-1, r.2) else (0, r.2)

def deleteTableColumn (my : Mysql) (table : MysqlTable) (db : Conn δ) : Int × Conn δ :=
  let r := my.getTableFields table db
  if r.1.1 ≠ 0 then (-1, r.2)
  else
    let want := table.wantDelFields r.1.2
    if want = [] then (0, r.2) else my.executeEach [.alter table.tableName (.dropColumns want)] r.2

def renameTableColumn (my : Mysql) (table : MysqlTable) (db : Conn δ) : Int × Conn δ :=
  let r := my.getTableFields table db
  if r.1.1 ≠ 0 then (-1, r.2)
  else my.executeEach ((table.wantRenameFields r.1.2).map fun x =>
    .alter table.tableName (.change x.1 x.2.name (getFieldTypeDesc x.2))) r.2

def modifyTableColumn (my : Mysql) (table : MysqlTable) (db : Conn δ) : Int × Conn δ :=
  let r := my.getTableFields table db
  if r.1.1 ≠ 0 then (-1, r.2)
  else my.executeEach ((table.wantModifyFields r.1.2).map fun x =>
    .alter table.tableName (.modify x.1 (getFieldModifyTypeDesc x.2))) r.2

def addTableColumn (my : Mysql) (table : MysqlTable) (db : Conn δ) : Int × Conn δ :=
  let r := my.getTableFields table db
  if r.1.1 ≠ 0 then (-1, r.2)
  else if ∃ f ∈ r.1.2, f ∉ table.insertFields then (-1, r.2)
  else
    let new := MysqlTable.newTableFields r.1.2 table.insertFields
    -- `return false`, which is 0
    if ¬ new.Nodup then (0, r.2)
    else my.executeEach ((table.addClauses r.1.2 none new).map fun a => .alter table.tableName a) r.2

def changeKey (my : Mysql) (table : MysqlTable) (db : Conn δ) : Int × Conn δ :=
  let r := my.getTableKeys table db
  if r.1.1 ≠ 0 then (-1, r.2)
  else
    let insertKeys := table.keys.map TableKey.name
    let r₁ := my.executeEach ((table.keys.filter fun k => k.name ∉ r.1.2).map fun k =>
      .alter table.tableName (.addKey k)) r.2
    if r₁.1 ≠ 0 then (-1, r₁.2)
    else my.executeEach ((r.1.2.filter fun n => n ∉ insertKeys).map fun n => .alter table.tableName (.dropKey n)) r₁.2

def changeTable (my : Mysql) (table : MysqlTable) (db : Conn δ) : Int × Conn δ :=
  let r := my.deleteTableColumn table db
  if r.1 ≠ 0 then (-1, r.2)
  else
    let r := my.renameTableColumn table r.2
    if r.1 ≠ 0 then (-1, r.2)
    else
      let r := my.modifyTableColumn table r.2
      if r.1 ≠ 0 then (-1, r.2)
      else
        let r := my.addTableColumn table r.2
        if r.1 ≠ 0 then (-1, r.2)
        else
          let r := my.changeKey table r.2
          if r.1 ≠ 0 then (-1, r.2) else (0, r.2)

/-- Also the configuration of the table, whose name is the copy's for a while. -/
def createTable (my : Mysql) (table : MysqlTable) (db : Conn δ) : (Int × MysqlTable) × Conn δ :=
  let r := my.getTableFields table db
  if r.1.1 ≠ 0 then ((-1, table), r.2)
  else if r.1.2 = [] then
    let r := my.createNewTable table r.2
    if r.1 ≠ 0 then ((-1, table), r.2) else ((0, table), r.2)
  else
    let oldTableName := table.tableName
    let newTableName := oldTableName ++ "_tmp"
    let r := my.copyTable newTableName oldTableName r.2
    if r.1 ≠ 0 then ((-1, table), r.2)
    else
      let table := { table with tableName := newTableName }
      let r := my.changeTable table r.2
      let db := (my.dropTable newTableName r.2).2
      if r.1 ≠ 0 then ((-1, table), db)
      else
        let table := { table with tableName := oldTableName }
        let r := my.changeTable table db
        if r.1 ≠ 0 then ((-1, table), r.2) else ((0, table), r.2)

end Mysql

end GlobalServer.Dbtool
