import RestTables.Json.Printer

/-
Module: RestTables.Export.Csv
Purpose: Rows as text with a separator between cells and every cell between quotes.
Main exports: Csv.columns, Csv.render?
-/

namespace RestTables.Csv

open Json Text

/-- The keys of all rows, in the order in which they come first. -/
def columns (rows : List Object) : List String :=
  let note (seen : List String) (key : String) : List String :=
    if seen.contains key then seen else seen ++ [key]
  rows.foldl (fun seen row => row.keys.foldl note seen) []

/-- The text of a cell: a string as it is, nothing for null, and JSON for all else. -/
def cell : Json → String
  | .null => ""
  | .str s => s
  | v => v.text

/-- A cell between quotes, a quote inside doubled. -/
def quoteCell (s : String) : List UInt8 :=
  Utf8.encode ('"' :: s.toList.flatMap (fun c => if c = '"' then ['"', '"'] else [c]) ++ ['"'])

/-- Cells with a byte between them. -/
def joinCells (delimiter : UInt8) : List (List UInt8) → List UInt8
  | [] => []
  | [c] => c
  | c :: rest => c ++ delimiter :: joinCells delimiter rest

/-- A line; one without cells holds one empty cell. -/
def line (delimiter : UInt8) (cells : List String) : List UInt8 :=
  joinCells delimiter ((if cells.isEmpty then [""] else cells).map quoteCell) ++ [10]

/-- A row under some columns; a column that it lacks is empty. -/
def rowCells (columns : List String) (row : Object) : List String :=
  columns.map fun c => ((row.get? c).map cell).getD ""

/-- The rows under a line with the columns, and the number of columns. The separator is one byte. -/
def render? (rows : List Object) (delimiter : Char) : Option (List UInt8 × Nat) :=
  if delimiter.toNat < 256 then
    let d := UInt8.ofNat delimiter.toNat
    let cs := columns rows
    some (line d cs ++ rows.flatMap (fun row => line d (rowCells cs row)), cs.length)
  else none

end RestTables.Csv
