import RestTables.Text.Blank
import RestTables.Text.Letter
import RestTables.Value.Basic
import RestTables.Config.Basic

/-
Module: RestTables.Query.Predicate
Purpose: Queries on a resource: which columns to show, which rows to keep, in what order, and what to read
  along with them. Both ways of asking lead to a query of this form.
Main exports: Operator, Predicate, Filter, Order, Load, Query
-/

namespace RestTables

/-- The operators of filters. -/
inductive Operator where
  | eq
  | ne
  | gt
  | ge
  | lt
  | le
  | like
  | notLike
  | isIn
  | notIn
  | isNull
  | isNotNull
  | between
  | notBetween
deriving Repr, DecidableEq, Inhabited

namespace Operator

/-- The operator's name. -/
def name : Operator → String
  | eq => "eq"
  | ne => "ne"
  | gt => "gt"
  | ge => "ge"
  | lt => "lt"
  | le => "le"
  | like => "like"
  | notLike => "not_like"
  | isIn => "in"
  | notIn => "not_in"
  | isNull => "is_null"
  | isNotNull => "is_not_null"
  | between => "between"
  | notBetween => "not_between"

/-- All ways to write each operator. -/
def spellings : List (Operator × List String) :=
  [(eq, ["==", "=", "eq"]), (ne, ["!=", "ne"]), (gt, [">", "gt"]), (ge, [">=", "ge", "gte"]),
   (lt, ["<", "lt"]), (le, ["<=", "le", "lte"]), (like, ["like", "ilike"]),
   (notLike, ["not_like", "not_ilike"]), (isIn, ["in"]), (notIn, ["not_in"]), (isNull, ["is_null"]),
   (isNotNull, ["is_not_null"]), (between, ["between"]), (notBetween, ["not_between"])]

/-- The operator that a text writes, ignoring case and blanks around it. -/
def read? (s : String) : Option Operator :=
  let word := String.ofList ((Text.trim s.toList).map Text.lowerAscii)
  (spellings.find? fun (_, names) => names.contains word).map (·.1)

theorem read?_name (o : Operator) : read? o.name = some o := by cases o <;> decide +kernel

end Operator

/-- A test of a column. -/
inductive Predicate where
  /-- A comparison by one of the six operators of order. -/
  | compare (op : Operator) (value : Value)
  /-- A pattern with wildcards, ignoring case. -/
  | like (pattern : String) (negated : Bool)
  | isIn (values : List Value) (negated : Bool)
  | null (negated : Bool)
  /-- Both ends included; negated, below the one or above the other. -/
  | range (low high : Value) (negated : Bool)
deriving Repr, DecidableEq

/-- The tests of one column, one of which must hold. -/
structure Filter where
  /-- The relation whose target has the column; none for the resource itself. -/
  relation : Option String
  field : String
  alternatives : List Predicate
deriving Repr, DecidableEq

/-- One column to sort by. -/
structure Order where
  relation : Option String
  field : String
  descending : Bool
deriving Repr, DecidableEq

/-- A relation to read along with each row. -/
structure Load where
  relation : String
  /-- The columns to read; none for all. -/
  columns : Option (List String)
deriving Repr, DecidableEq

/-- What a request asks for. -/
structure Query where
  fields : List String := []
  filters : List Filter := []
  orders : List Order := []
  related : List Load := []
  /-- A text to look for in every column that can be searched. -/
  search : Option String := none
deriving Repr, DecidableEq, Inhabited

/-- A query, the page of its result that is wanted, and what asking for relations means. -/
structure Plan where
  query : Query
  page : Nat
  /-- The size of a page; none for all rows on one. -/
  limit : Option Nat
  join : Join
deriving Repr, DecidableEq, Inhabited

end RestTables
