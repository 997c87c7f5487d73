import RestTables.Model.Record
import RestTables.Storage.Dialogue
import RestTables.Value.Coerce

/-
Module: RestTables.Rows.Read
Purpose: Reading rows: which columns are read, how answers become rows, and how one row is found by its key
  or by its values.
Main exports: Model.loadColumns, Rows.select, Rows.findByKey, Rows.findMatching
-/

namespace RestTables

open Sql

/-- The columns to read: those asked for, or all when none are, and always the key and those that are
needed otherwise. -/
def Model.loadColumns (m : Model) (requested needed : List String) : List Field :=
  if requested.isEmpty then m.columns
  else m.columns.filter fun f =>
    f.name == m.keyField.name || requested.contains f.name || needed.contains f.name

/-- The value that a path's part stands for as a key; none when it cannot be one. -/
def Model.keyValue? (m : Model) (id : String) : Option Value := Value.ofText? m.keyField.kind id

/-- The key of a row equals a value. -/
def Model.keyCondition (m : Model) (key : Value) : Condition := .compare ⟨m.table, m.keyField.name⟩ .eq key

namespace Rows

/-- The row that cells make. -/
def ofCells (fields : List Field) (cells : Cells) : Record :=
  { values := fields.map fun f => (f.name, cells.decode f.name f.kind), projection := none, related := [] }

/-- Reads rows of some columns. -/
def select (s : Select) (fields : List Field) : Session (List Record) := do
  return (← Session.query (.select s)).map (ofCells fields)

/-- The statement that looks for one row. -/
def oneStatement (m : Model) (condition : Condition) : Select :=
  { table := m.table
    columns := m.columns.map (·.name)
    condition
    order := []
    limit := some 1
    offset := none }

/-- Reads one row with all its columns. -/
def selectOne (m : Model) (condition : Condition) : Session (Option Record) := do
  return (← select (oneStatement m condition) m.columns).head?

/-- The row with a key; there is none for what cannot be a key. -/
def findByKey (m : Model) (id : String) : Session (Option Record) :=
  match m.keyValue? id with
  | none => pure none
  | some key => selectOne m (.all [m.keyCondition key])

/-- A column has a value; NULL has its own test. -/
def matchCondition (m : Model) (entry : String × Value) : Condition :=
  let (name, v) := entry
  if v.isNull then .isNull ⟨m.table, name⟩ false else .compare ⟨m.table, name⟩ .eq v

/-- The first row with all these values. -/
def findMatching (m : Model) (data : List (String × Value)) : Session (Option Record) :=
  selectOne m (.all (data.map (matchCondition m)))

end Rows

end RestTables
