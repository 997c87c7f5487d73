import RestTables.Query.Grammar
import RestTables.Number.Literal

/-
Module: RestTables.Query.Page
Purpose: Cutting a result into pages: which page and what size a request asks for, and how the page lies
  among all pages.
Main exports: PageRequest, PageRequest.ofArguments, Page, Page.of, Page.status
-/

namespace RestTables

/-- The page that is wanted, its size, and the names of arguments that make no sense. -/
structure PageRequest where
  page : Nat
  /-- None for all rows on one page. -/
  limit : Option Nat
  invalid : List String
deriving Repr, DecidableEq

namespace PageRequest

/-- A number from one on that fits 64 bits. -/
def positive? (s : String) : Option Nat :=
  (Number.readNat? 64 (Text.trim s.toList)).bind fun n => if n = 0 then none else some n

/-- The limit within the largest one. -/
def clamp (requested max : Option Nat) : Option Nat :=
  match requested, max with
  | some n, some m => some (min n m)
  | none, some m => some m
  | requested, none => requested

/-- The name of an argument that was given but is no positive number. -/
def complaint (args : Arguments) (name : String) : List String :=
  match args.first? name with
  | some s => if (positive? s).isNone then [name] else []
  | none => []

/-- The page and the limit that arguments ask for. -/
def ofArguments (names : ArgumentNames) (maxLimit : Option Nat) (args : Arguments) : PageRequest :=
  { page := ((args.first? names.page).bind positive?).getD 1
    limit := clamp ((args.first? names.limit).bind positive?) maxLimit
    invalid := complaint args names.page ++ complaint args names.limit }

end PageRequest

/-- How a page lies among all pages. -/
inductive PageStatus where
  /-- The last page, or the only one. -/
  | complete
  /-- More pages follow. -/
  | partly
  /-- There is no such page. -/
  | beyond
deriving Repr, DecidableEq

namespace PageStatus

/-- The name of a status. -/
def name : PageStatus → String
  | complete => "complete"
  | partly => "partial"
  | beyond => "beyond"

/-- The status of a reply that holds the page. -/
def code : PageStatus → Nat
  | complete => 200
  | partly => 206
  | beyond => 204

end PageStatus

/-- A page of a result, counted from one. -/
structure Page where
  number : Nat
  size : Nat
  /-- The number of rows on all pages. -/
  total : Nat
  count : Nat
deriving Repr, DecidableEq, Inhabited

namespace Page

/-- The pages that `total` rows fill; without a limit they are all on one. -/
def of (number : Nat) (limit : Option Nat) (total : Nat) : Page :=
  let size := limit.getD total
  { number := max number 1
    size
    total
    count := if size = 0 then 0 else (total + size - 1) / size }

/-- Counts do not go past 64 bits. -/
def countBound : Nat := twoTo 64 - 1

/-- The number of rows on the pages before. -/
def offset (p : Page) : Nat := min ((p.number - 1) * p.size) countBound

/-- An empty result has one page, which is empty and complete. -/
def status (p : Page) : PageStatus :=
  if p.number > max p.count 1 then .beyond
  else if p.number < p.count then .partly
  else .complete

/-- There is a page before. -/
def hasPrevious (p : Page) : Bool := 1 < p.number && p.number ≤ max p.count 1

/-- There is a page after. -/
def hasNext (p : Page) : Bool := p.number < p.count

/-- The headers that tell of the page. -/
def headers (p : Page) : List (String × String) :=
  [("pagination-count", toString p.total), ("pagination-page", toString p.number),
   ("pagination-num-pages", toString p.count), ("pagination-page-size", toString p.size)]

end Page

end RestTables
