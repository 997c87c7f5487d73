import RestTables.Storage.Dialogue
import RestTables.Sql.Printer

/-
Module: RestTables.Storage.Script
Purpose: A database whose answers are known beforehand: each statement takes the next one. It keeps a log of
  all that was said to it.
Main exports: Answer, Event, Script.run
-/

namespace RestTables

/-- The answer to one statement: rows for those that ask for rows, counts for the others. -/
inductive Answer where
  | success (rows : List Cells) (effect : Effect)
  | failure (error : StorageError)
deriving Repr, DecidableEq

/-- What was said to the database. -/
inductive Event where
  | query (text : String) (values : List Value)
  | execute (text : String) (values : List Value)
  | mark (m : Mark)
deriving Repr, DecidableEq

/-- The answers to come. -/
abbrev Script := List Answer

namespace Script

/-- There is no answer left. -/
def exhausted : StorageError := .custom "script exhausted"

/-- The rows of the next answer. -/
def rows : Script → Except StorageError (List Cells)
  | [] => .error exhausted
  | .failure e :: _ => .error e
  | .success rows _ :: _ => .ok rows

/-- The counts of the next answer. -/
def effect : Script → Except StorageError Effect
  | [] => .error exhausted
  | .failure e :: _ => .error e
  | .success _ effect :: _ => .ok effect

/-- The result of a dialogue with this database, and the log. -/
def run (b : Backend) : Script → Dialogue α → α × List Event
  | _, .done a => (a, [])
  | script, .query s next =>
    let (a, log) := run b script.tail (next script.rows)
    (a, .query (s.text b) (s.values b) :: log)
  | script, .execute s next =>
    let (a, log) := run b script.tail (next script.effect)
    (a, .execute (s.text b) (s.values b) :: log)
  | script, .mark m next =>
    let (a, log) := run b script next
    (a, .mark m :: log)

end Script

end RestTables
