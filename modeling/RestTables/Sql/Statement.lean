import RestTables.Value.Basic

/-
Module: RestTables.Sql.Statement
Purpose: The statements that a service sends to a database, as trees. Names of tables and columns have
  places of their own; all that clients send is a bound value.
Main exports: Condition, Select, Statement, CatalogQuery
-/

namespace RestTables.Sql

/-- A column of a table, or of the table that a subquery calls `related`. -/
structure Column where
  table : String
  name : String
deriving Repr, DecidableEq

/-- The name by which a subquery calls its table, so that it is never mistaken for one outside. -/
def relatedAlias : String := "related"

/-- The six comparisons. -/
inductive Comparison where
  | eq
  | ne
  | gt
  | ge
  | lt
  | le
deriving Repr, DecidableEq

mutual

/-- What must be true of a row. -/
inductive Condition where
  | compare (column : Column) (op : Comparison) (value : Value)
  /-- The pattern matches the column's text, ignoring case. -/
  | like (column : Column) (pattern : String) (escape : Char) (negated : Bool)
  | isIn (column : Column) (values : List Value) (negated : Bool)
  | isNull (column : Column) (negated : Bool)
  | between (column : Column) (low high : Value)
  /-- The column's value occurs in a column of another table. -/
  | isInTable (column : Column) (sub : Subquery)
  | all (parts : List Condition)
  | any (parts : List Condition)

/-- One column of a table that a condition may restrict. -/
inductive Subquery where
  | mk (column table : String) (condition : Option Condition)

end

deriving instance Inhabited for Condition

/-- What a result is sorted by. -/
inductive SortKey where
  | column (column : Column)
  /-- The least or greatest value of a column of those rows of another table whose remote key equals
  the outer row's local key. -/
  | related (field remoteKey table : String) (localKey : Column)
deriving Repr, DecidableEq

/-- A part of an order. -/
structure SortItem where
  key : SortKey
  descending : Bool
deriving Repr, DecidableEq

/-- Rows of a table. -/
structure Select where
  table : String
  columns : List String
  condition : Condition
  order : List SortItem
  limit : Option Nat
  offset : Option Nat

/-- Questions about the schema, each with the name of what it is about. -/
inductive CatalogQuery where
  | liteTables
  | liteIndexes (table : String)
  | liteIndexColumns (index : String)
  | liteColumns (table : String)
  | liteForeignKeys (table : String)
  | postgresTables (schema : String)
  | postgresConstraints (kind schema table : String)
  | postgresForeignKeys (schema table : String)
  | postgresColumns (schema table : String)
deriving Repr, DecidableEq

/-- A statement. -/
inductive Statement where
  | select (s : Select)
  /-- The number of rows that meet a condition. -/
  | count (table : String) (condition : Condition)
  /-- A new row; the columns that are read back where the database can do that. -/
  | insert (table : String) (row : List (String × Value)) (returning : List String)
  | update (table : String) (changes : List (String × Value)) (condition : Condition)
  | delete (table : String) (condition : Condition)
  | catalog (q : CatalogQuery)

instance : Inhabited Statement := ⟨.catalog .liteTables⟩

/-- The statement changes rows. -/
def Statement.isWrite : Statement → Bool
  | .insert .. | .update .. | .delete .. => true
  | _ => false

/-- The name of the column that holds a count. -/
def countColumn : String := "num_items"

end RestTables.Sql
