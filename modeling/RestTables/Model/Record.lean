import RestTables.Model.Basic
import RestTables.Value.Basic

/-
Module: RestTables.Model.Record
Purpose: Rows that have been read, and the rows read along with them.
Main exports: Row, Related, Record, Model.links
-/

namespace RestTables

/-- The values of a row by column, and which of them are shown; none for all. -/
structure Row where
  values : List (String × Value)
  projection : Option (List String)
deriving Repr, DecidableEq, Inhabited

namespace Row

/-- The value of a column. -/
def get? (r : Row) (column : String) : Option Value := r.values.lookup column

/-- The plain text of a column's value; none when it is absent or NULL. -/
def keyText (r : Row) (column : String) : Option String := (r.get? column).bind Value.keyText

/-- The column is shown. -/
def shows (r : Row) (column : String) : Bool :=
  match r.projection with
  | none => true
  | some columns => columns.contains column

end Row

/-- What a relation leads to: one row or none, or any number of rows. -/
inductive Related (α : Type) where
  | one (row : Option α)
  | many (rows : List α)
deriving Repr, DecidableEq

/-- A row, and what some of its relations lead to. -/
structure Record extends Row where
  related : List (String × Related Record)
deriving Repr, Inhabited

namespace Model

/-- The path of a row; none when its key has not been read. -/
def recordUri (m : Model) (r : Row) : Option String := (r.keyText m.keyField.name).map m.rowUri

/-- The paths of a row and of what its relations lead to. -/
def links (m : Model) (r : Row) : Json.Object :=
  match m.recordUri r with
  | none => []
  | some uri =>
    Json.Object.insert "self" (.str uri)
      (Json.Object.ofMembers
        (m.relations.map fun relation => (relation.name, .str (uri ++ "/" ++ relation.segment))))

end Model

end RestTables
