import RestTables.Rows.Read
import RestTables.Sql.Backend
import RestTables.Number.Power

/-
Module: RestTables.Rows.Write
Purpose: Changing rows: the values that a body gives to columns, and inserting, updating and deleting one row.
Main exports: Model.bind, Rows.insert, Rows.update, Rows.delete
-/

namespace RestTables

open Sql

/-- The values that a body gives to columns. -/
structure Bound where
  /-- The columns and values, in the order of the body. -/
  values : List (String × Value)
  /-- The names of columns whose values do not fit. -/
  invalid : List String
deriving Repr, DecidableEq

/-- The value that a member of a body gives to its column; none for names of no column. -/
def Model.bindMember? (m : Model) (member : String × Json) : Option (String × Option Value) :=
  (m.column? member.1).map fun f => (member.1, Value.ofJson? f.kind member.2)

/-- A body as values of columns. Names of no column are left out. -/
def Model.bind (m : Model) (data : Json.Object) : Bound :=
  let bound := data.filterMap m.bindMember?
  { values := bound.filterMap fun (name, v) => v.map (name, ·)
    invalid := (bound.filter fun (_, v) => v.isNone).map (·.1) }

namespace Rows

/-- The largest row number. -/
def maxRowNumber : Nat := twoTo 63 - 1

/-- The key of a new row: the one that was inserted, or else the number that the database gave it. -/
def insertedKey (m : Model) (row : List (String × Value)) (effect : Effect) : Value :=
  (row.lookup m.keyField.name).getD (.bigInt (some (Int64.ofNat (min effect.lastId maxRowNumber))))

/-- Inserts a row and reads it back, from the insert itself or by its key. -/
def insert (b : Backend) (m : Model) (row : List (String × Value)) : Session Record := do
  let statement : Statement := .insert m.table row (m.columns.map (·.name))
  if b.returnsRows then
    match ← Session.queryOne statement with
    | some cells => return ofCells m.columns cells
    | none => throw .recordNotInserted
  else
    let effect ← Session.execute statement
    match ← selectOne m (.all [m.keyCondition (insertedKey m row effect)]) with
    | some r => return r
    | none => throw .recordNotInserted

/-- Changes the row with a key; without changes nothing is said to the database. -/
def update (m : Model) (key : Value) (changes : List (String × Value)) : Session Unit := do
  if changes.isEmpty then pure ()
  else discard (Session.execute (.update m.table changes (.all [m.keyCondition key])))

/-- Deletes the row with a key; the number of rows that are gone. -/
def delete (m : Model) (key : Value) : Session Nat := do
  return (← Session.execute (.delete m.table (.all [m.keyCondition key]))).affected

end Rows

end RestTables
