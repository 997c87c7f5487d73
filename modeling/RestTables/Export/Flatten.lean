import RestTables.Json.Basic

/-
Module: RestTables.Export.Flatten
Purpose: Objects as flat rows. Each array multiplies the rows by its items; what is nested one level deep gets
  the name of where it lies in front.
Main exports: Export.flatten
-/

namespace RestTables.Export

open Json

/-- The member that holds links, which no row has. -/
def linksKey : String := "_links"

/-- A value that holds others. -/
def isContainer : Json → Bool
  | .arr _ | .obj _ => true
  | _ => false

/-- A row with the members of a nested object, except links and what is nested deeper. -/
def addNested (key : String) (row nested : Object) : Object :=
  nested.foldl (fun row (field, v) =>
    if field == linksKey || isContainer v then row else row.insert (key ++ "." ++ field) v) row

/-- A row with one value under a key. -/
def addValue (key : String) (row : Object) : Json → Object
  | .obj nested => addNested key row nested
  | v => row.insert key v

/-- Rows with one more member. -/
def addMember (rows : List Object) (member : String × Json) : List Object :=
  let (key, v) := member
  if key == linksKey then rows
  else match v with
    | .arr [] => rows
    | .arr children => rows.flatMap fun row => children.map (addValue key row)
    | v => rows.map fun row => addValue key row v

/-- The rows of an object. -/
def flatten (item : Object) : List Object := item.foldl addMember [[]]

example : flatten [("a", .int 1), ("b", .arr [.int 2, .int 3])] =
    [[("a", .int 1), ("b", .int 2)], [("a", .int 1), ("b", .int 3)]] := by decide +kernel

end RestTables.Export
