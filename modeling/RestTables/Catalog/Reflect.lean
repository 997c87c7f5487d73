import RestTables.Catalog.Groups
import RestTables.Catalog.Table
import RestTables.Config.Basic
import RestTables.Config.Error
import RestTables.Sql.Backend
import RestTables.Storage.Dialogue

/-
Module: RestTables.Catalog.Reflect
Purpose: Reading the tables of a database from its catalog: columns, keys, and the foreign keys of one
  column. Keys of several columns lead to no single row and are left out.
Main exports: Catalog.tables
-/

namespace RestTables.Catalog

open Sql

/-- The table in which schema migrations are recorded; it is no resource. -/
def migrationsTable : String := "seaql_migrations"

/-- What is asked of the catalog. -/
def ask (q : CatalogQuery) : Session (List Cells) := Session.query (.catalog q)

/-- The entries whose key no other entry has. -/
def lone [BEq κ] (entries : List (κ × α)) : List α :=
  (entries.filter fun e => (entries.filter fun f => f.1 == e.1).length == 1).map (·.2)

/-- The foreign keys of one column, from rows that each tell of a column and of the key to which it belongs. -/
def loneKeys [BEq κ] (q : CatalogQuery) (entry : Cells → Except StorageError (κ × ForeignKey)) :
    Session (List ForeignKey) := do
  let entries ← ((← ask q).mapM entry : Except StorageError _)
  return (Groups.ofEntries entries).singles

/-- Names in the order read, without the table of migrations. -/
def userTables (names : List String) : List String := names.filter (· != migrationsTable)

/-! ## SQLite -/

namespace Lite

/-- An index of one column without equal values, the key's own aside: that column. -/
def uniqueColumn (index : Cells) : Session (Option String) := do
  let isUnique ← (index.int "unique" : Except StorageError _)
  let origin ← (index.text "origin" : Except StorageError _)
  if isUnique = 0 ∨ origin = "pk" then return none
  let name ← (index.text "name" : Except StorageError _)
  match ← ask (.liteIndexColumns name) with
  | [column] => return some (← (column.text "name" : Except StorageError _))
  | _ => return none

/-- The columns without equal values. -/
def uniqueColumns (table : String) : Session (List String) := do
  return (← (← ask (.liteIndexes table)).mapM uniqueColumn).filterMap id

/-- The column belongs to the key. -/
def isKey (column : Cells) : Bool :=
  match column.int? "pk" with
  | some n => n > 0
  | none => false

/-- A column; `keys` is the number of columns of the key. A key that is one INTEGER column is another name
for the row number. -/
def field (keys : Nat) (unique : List String) (column : Cells) : Except StorageError Field := do
  let name ← column.text "name"
  let type ← column.text "type"
  let notNull ← column.int "notnull"
  let pk ← column.int "pk"
  let f := { Field.new name (Kind.ofSqlType type) with sqlType := type }
  let f := if pk > 0 then f.primaryKey else f
  let f := if pk > 0 && keys == 1 && Text.sameFold type "INTEGER" then f.autoIncremented else f
  let f := if notNull = 0 then f else f.notNull
  let f := if (column.text? "dflt_value").isSome then f.withDefault else f
  return if unique.contains name then f.unique else f

/-- A column of a foreign key, with the number of the key. -/
def foreignKey (cells : Cells) : Except StorageError (Int × ForeignKey) := do
  let id ← cells.int "id"
  let column ← cells.text "from"
  let table ← cells.text "table"
  return (id, ⟨column, table, cells.text? "to"⟩)

/-- The foreign keys of a table that have one column. -/
def foreignKeys (table : String) : Session (List ForeignKey) := loneKeys (.liteForeignKeys table) foreignKey

/-- A table. -/
def table (name : String) : Session Table := do
  let unique ← uniqueColumns name
  let info ← ask (.liteColumns name)
  let keys := (info.filter isKey).length
  let columns ← (info.mapM (field keys unique) : Except StorageError _)
  return ⟨name, none, columns, ← foreignKeys name⟩

/-- All tables from rows with their names; each is read before the next name is. -/
def tablesOf : List Cells → Session (List Table)
  | [] => pure []
  | row :: rest => do
    let name ← (row.text "name" : Except StorageError _)
    if name = migrationsTable then tablesOf rest
    else
      let t ← table name
      return t :: (← tablesOf rest)

/-- All tables. -/
def tables : Session (List Table) := do tablesOf (← ask .liteTables)

end Lite

/-! ## PostgreSQL -/

namespace Postgres

/-- A constraint's name and one of its columns. -/
def constraintColumn (cells : Cells) : Except StorageError (String × String) := do
  return (← cells.text "constraint_name", ← cells.text "column_name")

/-- The columns of all constraints of a kind. -/
def constraintColumns (kind schema table : String) : Session (List (String × String)) := do
  ((← ask (.postgresConstraints kind schema table)).mapM constraintColumn : Except StorageError _)

/-- A column. What the database numbers itself has a default that asks a sequence, or is an identity. -/
def field (keys unique : List String) (column : Cells) : Except StorageError Field := do
  let name ← column.text "column_name"
  let type ← column.text "data_type"
  let nullable ← column.text "is_nullable"
  let default := column.text? "column_default"
  let identity ← column.text "is_identity"
  let comment := column.text? "comment"
  let isSerial := (default.map fun d => "nextval(".toList.isPrefixOf d.toList).getD false
  let isIdentity := identity == "YES"
  let f := { Field.new name (Kind.ofSqlType type) with sqlType := type, comment }
  let f := if keys.contains name then f.primaryKey else f
  let f := if keys.contains name && (isSerial || isIdentity) then f.autoIncremented else f
  let f := if nullable = "NO" then f.notNull else f
  let f := if default.isSome || isIdentity then f.withDefault else f
  return if unique.contains name then f.unique else f

/-- A column of a foreign key, with the name of the key. -/
def foreignKey (cells : Cells) : Except StorageError (String × ForeignKey) := do
  let name ← cells.text "constraint_name"
  let column ← cells.text "column_name"
  let table ← cells.text "target_table"
  let target ← cells.text "target_column"
  return (name, ⟨column, table, some target⟩)

/-- The foreign keys of a table that have one column. -/
def foreignKeys (schema table : String) : Session (List ForeignKey) :=
  loneKeys (.postgresForeignKeys schema table) foreignKey

/-- A table. -/
def table (schema name : String) (comment : Option String) : Session Table := do
  let keys := (← constraintColumns "PRIMARY KEY" schema name).map (·.2)
  let unique := lone (← constraintColumns "UNIQUE" schema name)
  let info ← ask (.postgresColumns schema name)
  let columns ← (info.mapM (field keys unique) : Except StorageError _)
  return ⟨name, comment, columns, ← foreignKeys schema name⟩

/-- All tables from rows with their names; each is read before the next name is. -/
def tablesOf (schema : String) : List Cells → Session (List Table)
  | [] => pure []
  | row :: rest => do
    let name ← (row.text "table_name" : Except StorageError _)
    if name = migrationsTable then tablesOf schema rest
    else
      let t ← table schema name (row.text? "comment")
      return t :: (← tablesOf schema rest)

/-- All tables of a schema. -/
def tables (schema : String) : Session (List Table) := do tablesOf schema (← ask (.postgresTables schema))

end Postgres

/-- A dialogue that ends when the tables cannot be read. -/
abbrev Reflection := ExceptT ConfigError Dialogue

/-- The failure of a statement makes the catalog unreadable. -/
def ofSession (s : Session α) : Reflection α := ExceptT.adapt ConfigError.storage s

/-- All tables of a database, in the order of their names. -/
def tables (b : Backend) (schema : Option String) : Reflection (List Table) :=
  match b with
  | .sqlite => ofSession Lite.tables
  | .postgres => ofSession (Postgres.tables (schema.getD "public"))
  | .mysql => throw (.unsupportedBackend b.name)

/-- All tables that are to be exposed. -/
def exposedTables (b : Backend) (config : Config) : Reflection (List Table) := do
  return Table.exclude (← tables b config.schema) config.excludeTables

end RestTables.Catalog
