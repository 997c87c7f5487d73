import RestTables.Text.Split
import RestTables.Text.Blank

/-
Module: RestTables.Query.Grammar
Purpose: The vocabulary of query strings: the marks that a filter value may carry, and the names that are
  no columns. Both can be exchanged without touching what reads them.
Main exports: Grammar, Grammar.items, Grammar.escapeLike, ArgumentNames
-/

namespace RestTables

/-- The marks of filter values. -/
structure Grammar where
  separator : String := ";"
  negate : String := "!"
  reverse : String := "-"
  null : String := "null"
  like : String := "%"
  notLike : String := "!%"
  escape : Char := '\\'
  gt : String := "__gt__"
  gte : String := "__gte__"
  lt : String := "__lt__"
  lte : String := "__lte__"
  rangeStart : String := "("
  rangeEnd : String := ")"
  notRangeStart : String := "!("
deriving Repr, DecidableEq, Inhabited

namespace Grammar

/-- The items of a list without blanks around them; empty items are dropped. -/
def items (g : Grammar) (s : List Char) : List (List Char) :=
  ((Text.split g.separator.toList s).map Text.trim).filter (!·.isEmpty)

/-- One character of a text that a pattern shall match as it stands. -/
def escapeLikeChar (g : Grammar) (c : Char) : List Char :=
  if c = '%' ∨ c = '_' ∨ c = g.escape then [g.escape, c] else [c]

/-- The pattern that matches a text as it stands. -/
def escapeLike (g : Grammar) (s : List Char) : List Char := s.flatMap g.escapeLikeChar

end Grammar

/-- The names in a query string that are no columns. -/
structure ArgumentNames where
  page : String := "_page"
  limit : String := "_limit"
  exports : String := "_export"
  sort : String := "_sort"
  fields : String := "_fields"
  related : String := "_related"
  extended : String := "_extended"
  asTable : String := "_as_table"
  noLinks : String := "_no_links"
  search : String := "_search"
  method : String := "_method"
deriving Repr, DecidableEq, Inhabited

namespace ArgumentNames

/-- Names that have nothing to do with sorting, projection and filters. -/
def isScalar (a : ArgumentNames) (key : String) : Bool :=
  [a.page, a.limit, a.exports, a.related, a.extended, a.asTable, a.noLinks, a.search, a.method].contains key

/-- Names that are no columns. -/
def isReserved (a : ArgumentNames) (key : String) : Bool := a.isScalar key || key == a.sort || key == a.fields

/-- Names that say which page is meant. -/
def isPagination (a : ArgumentNames) (key : String) : Bool := key == a.page || key == a.limit

end ArgumentNames

/-- The arguments of a request in order; names may repeat. -/
abbrev Arguments := List (String × String)

/-- The first value of a name. -/
def Arguments.first? (args : Arguments) (name : String) : Option String := args.lookup name

end RestTables
