/-
Module: RestTables.Sql.Backend
Purpose: The kinds of databases and in what their statements differ.
Main exports: Backend
-/

namespace RestTables

/-- A kind of database. -/
inductive Backend where
  | sqlite
  | postgres
  | mysql
deriving Repr, DecidableEq, Inhabited

namespace Backend

/-- The name in messages. -/
def name : Backend → String
  | sqlite => "Sqlite"
  | postgres => "Postgres"
  | mysql => "MySql"

/-- An insert gives back the new row. -/
def returnsRows : Backend → Bool
  | postgres => true
  | _ => false

/-- The mark around names of tables and columns. -/
def nameQuote : Backend → Char
  | mysql => '\x60'
  | _ => '"'

/-- The place of the value with that number, counted from one. -/
def placeholder (b : Backend) (number : Nat) : String :=
  match b with
  | postgres => s!"${number}"
  | _ => "?"

/-- How a statement writes the character that escapes in patterns. -/
def escapeLiteral (b : Backend) (c : Char) : String :=
  if c = '\\' then
    match b with
    | sqlite => "'\\'"
    | postgres => "E'\\\\'"
    | mysql => "'\\\\'"
  else if c = '\'' then "''''"
  else String.ofList ['\'', c, '\'']

/-- The values of an insert without columns. -/
def defaultRow : Backend → String
  | sqlite => "DEFAULT VALUES"
  | postgres => "VALUES (DEFAULT)"
  | mysql => "VALUES ()"

end Backend

end RestTables
