import RestTables.Value.Coerce

/-
Module: RestTables.Value.Stored
Purpose: Cells of a database that stores five classes of values whatever a column declares, and the value
  that a column of some kind makes of them.
Main exports: Stored, Stored.decode?
-/

namespace RestTables

/-- A stored cell, by its storage class. -/
inductive Stored where
  | null
  | integer (n : Int64)
  | real (x : Binary64)
  | text (s : String)
  | blob (bytes : List UInt8)
deriving Repr, DecidableEq

namespace Stored

/-- A date with a time. It may be stored as text, as seconds since 1970 or as a Julian day; `ofText?` says
what a text means. -/
def dateTime? (ofText? : List Char → Option DateTime) : Stored → Option DateTime
  | .text s => ofText? s.toList
  | .integer n => DateTime.ofUnix? n.toInt 0
  | .real x => DateTime.ofJulianDay? x
  | _ => none

/-- The value of exactly the kind, where the cell holds one. An identifier may be stored as its bytes or as
the text that those bytes encode. -/
def ofKind? (kind : Kind) (cell : Stored) : Option Value :=
  match kind, cell with
  | .integer, .integer n => some (.bigInt (some n))
  | .float, .real x => some (.double (some x))
  | .decimal, .real x =>
    match Decimal.ofBinary64? x with
    | some d => some (.decimal (some d))
    | none => some (.double (some x))
  | .boolean, .integer n => some (.bool (some (n != 0)))
  | .string, .text s => some (.string (some s))
  | .date, .text s => (Date.read? s.toList).map fun d => .date (some d)
  | .time, .text s => (Time.ofStored? s.toList).map fun t => .time (some t)
  | .datetime, _ => (cell.dateTime? DateTime.ofStored?).map fun t => .datetime (some t)
  | .datetimeTz, _ => (cell.dateTime? DateTime.instantOfStored?).map fun t => .instant (some t)
  | .uuid, .blob b => (Uuid.ofBytes? b).map fun u => .uuid (some u)
  | .uuid, .text s => (Uuid.ofBytes? (Text.Utf8.encode s.toList)).map fun u => .uuid (some u)
  | .json, .text s => (Json.parse? (Text.Utf8.encode s.toList)).map fun v => .json (some v)
  | .binary, .blob b => some (.bytes (some b))
  | .binary, .text s => some (.bytes (some (Text.Utf8.encode s.toList)))
  | _, _ => none

/-- The value of the cell's own class. -/
def plain? : Stored → Option Value
  | .text s => some (.string (some s))
  | .integer n => some (.bigInt (some n))
  | .real x => some (.double (some x))
  | _ => none

/-- The value that a column of a kind makes of a cell: NULL is the NULL of the kind, and what does not
fit the kind keeps its own class, except bytes. -/
def decode? (kind : Kind) (cell : Stored) : Option Value :=
  match cell with
  | .null => some (.null kind)
  | cell => ofKind? kind cell <|> cell.plain?

example : decode? .boolean (.integer 2) = some (.bool (some true)) := by decide +kernel
example : decode? .date (.text "2009-13-02") = some (.string (some "2009-13-02")) := by decide +kernel
example : decode? .uuid (.blob [255]) = none := by decide +kernel

end Stored

end RestTables
