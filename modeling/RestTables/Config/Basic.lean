import RestTables.Text.Letter
import RestTables.Text.Blank

/-
Module: RestTables.Config.Basic
Purpose: The settings of a service.
Main exports: Join, Join.read?, Config
-/

namespace RestTables

/-- Whether asking for a relation restricts the rows. -/
inductive Join where
  /-- Rows are kept whether or not there are related rows. -/
  | outer
  /-- Only rows with a related row are kept. -/
  | inner
deriving Repr, DecidableEq, Inhabited

namespace Join

/-- The name of a kind of join. -/
def name : Join → String
  | outer => "outer"
  | inner => "inner"

/-- The kind of join that a word names, ignoring case. -/
def read? (s : String) : Option Join :=
  let word := Text.lowerText s
  if word = "outer" ∨ word = "left" then some outer
  else if word = "inner" then some inner
  else none

/-- The message for a word that names no join. -/
def unknown (s : String) : String := s!"unknown join kind '{Text.lowerText s}'"

end Join

/-- The settings of a service; the defaults are those of a service that is told nothing. -/
structure Config where
  /-- What stands in front of every path. -/
  baseUrl : String := ""
  resourcesUrl : String := "/resources"
  resourcesUrlEnabled : Bool := true
  /-- The part of a path that asks for the description of a resource. -/
  metadataUrl : String := "/meta"
  metadataEnabled : Bool := true
  /-- No resource answers a verb that may change rows. -/
  readOnly : Bool := false
  fetchEnabled : Bool := true
  exportEnabled : Bool := true
  conditionalRequestEnabled : Bool := true
  queryStringFiltersEnabled : Bool := true
  /-- The largest page, and the size of a page unless a request says otherwise; none for no limit. -/
  maxLimit : Option Nat := some 1000
  join : Join := .outer
  /-- The schema whose tables are read from a catalog that has schemas. -/
  schema : Option String := none
  /-- Tables that are not exposed. -/
  excludeTables : List String := []
  csvDelimiter : Char := ';'
deriving Repr, DecidableEq

namespace Config

instance : Inhabited Config := ⟨{}⟩

/-- The part of a path that asks for a description, without the slash in front. -/
def metadataSegment (c : Config) : String := String.ofList (Text.trimStartOf '/' c.metadataUrl.toList)

end Config

end RestTables
