import RestTables.Model.Field

/-
Module: RestTables.Catalog.Table
Purpose: Tables as a database's catalog describes them.
Main exports: ForeignKey, Table
-/

namespace RestTables

/-- A key of one column that refers to another table. -/
structure ForeignKey where
  column : String
  targetTable : String
  /-- The column referred to; none for the target's primary key. -/
  targetColumn : Option String
deriving Repr, DecidableEq, Inhabited

/-- A table. -/
structure Table where
  name : String
  comment : Option String
  columns : List Field
  foreignKeys : List ForeignKey
deriving Repr, DecidableEq, Inhabited

/-- The tables without those that are to be left out, ignoring case. -/
def Table.exclude (tables : List Table) (names : List String) : List Table :=
  tables.filter fun t => !names.any fun name => Text.sameFold name t.name

end RestTables
