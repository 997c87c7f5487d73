import RestTables.Query.Compiler

/-
Module: RestTables.Query.Arguments
Purpose: Queries from query strings. Every value of a column is an alternative; a value is a comparison, a
  pattern, a range, or a list of values of which one must be met.
Main exports: Compiler.predicate?, Compiler.ofArguments
-/

namespace RestTables.Compiler

open Text

/-! ## Values -/

/-- The marks of comparisons, the longer of two that begin alike first. -/
def comparisons (g : Grammar) : List (String × Operator) :=
  [(g.gte, .ge), (g.gt, .gt), (g.lte, .le), (g.lt, .lt)]

/-- The comparison whose mark a value begins with, and what follows the mark. -/
def comparison? (g : Grammar) (s : List Char) : Option (Operator × List Char) :=
  (comparisons g).findSome? fun (mark, op) => (after? mark.toList s).map fun rest => (op, rest)

/-- The pattern that a value writes, and whether it must not match. -/
def pattern? (g : Grammar) (s : List Char) : Option (List Char × Bool) :=
  (after? g.notLike.toList s).map (·, true) <|> (after? g.like.toList s).map (·, false)

/-- What stands between the brackets of a range, and whether the value must lie outside. -/
def range? (g : Grammar) (s : List Char) : Option (List Char × Bool) := do
  let body ← before? g.rangeEnd.toList s
  (after? g.notRangeStart.toList body).map (·, true) <|> (after? g.rangeStart.toList body).map (·, false)

/-- A mark that may stand in front, and what follows. -/
def takeMark (mark s : List Char) : Bool × List Char :=
  match after? mark s with
  | some rest => (true, rest)
  | none => (false, s)

/-- A value of the column's kind. -/
def value? (kind : Kind) (s : List Char) : Option Value := Value.ofText? kind (String.ofList s)

/-- The test that a list of items writes: equality with a single one, which may be the word for NULL,
membership of several. The first item carries the marks. -/
def membership? (g : Grammar) (kind : Kind) : List (List Char) → Option Predicate
  | [] => none
  | first :: rest =>
    let (negated, first) := takeMark g.negate.toList first
    let (escaped, first) := takeMark [g.escape] first
    if rest.isEmpty then
      if !escaped && equalFold first g.null.toList then some (.null negated)
      else (value? kind first).map fun v => .compare (if negated then .ne else .eq) v
    else ((first :: rest).mapM (value? kind)).map fun vs => .isIn vs negated

/-- The range that two items write. -/
def rangeOf? (kind : Kind) (negated : Bool) : List (List Char) → Option Predicate
  | [low, high] => do some (.range (← value? kind low) (← value? kind high) negated)
  | _ => none

/-- The test that a value writes; none when it does not fit the grammar or the column. Comparisons are
looked for first, then patterns, ranges and lists. -/
def predicate? (g : Grammar) (kind : Kind) (raw : String) : Option Predicate :=
  let s := trim raw.toList
  if s.isEmpty then none
  else match comparison? g s with
    | some (op, rest) => (value? kind rest).map (.compare op)
    | none =>
      match pattern? g s with
      | some (pattern, negated) => some (.like (String.ofList pattern) negated)
      | none =>
        match range? g s with
        | some (inner, negated) => rangeOf? kind negated (g.items inner)
        | none => membership? g kind (g.items s)

/-! ## Arguments -/

/-- The items of a value. -/
def itemsOf (c : Compiler) (value : String) : List String := (c.grammar.items value.toList).map String.ofList

/-- One item of the list of columns to show. -/
def field (c : Compiler) (acc : Compiled) (item : String) : Compiled :=
  if (c.model.column? item).isSome then acc.addField item else acc.reject item

/-- One item of the list of columns to sort by. -/
def sortItem (c : Compiler) (acc : Compiled) (item : String) : Compiled :=
  let (descending, name) := takeMark c.grammar.reverse.toList item.toList
  match c.resolve? (String.ofList name) with
  | some (relation, field) => acc.addOrder ⟨relation, field.name, descending⟩
  | none => acc.reject item

/-- The arguments that are about sorting and projection. -/
def directive (c : Compiler) (acc : Compiled) (arg : String × String) : Compiled :=
  if arg.1 == c.names.sort then (c.itemsOf arg.2).foldl c.sortItem acc
  else if arg.1 == c.names.fields then (c.itemsOf arg.2).foldl c.field acc
  else acc

/-- The values of each name, names in the order in which they come first. -/
def grouped : Arguments → List (String × List String)
  | [] => []
  | (key, value) :: rest =>
    let groups := grouped rest
    (key, value :: (groups.lookup key).getD []) :: groups.filter (·.1 != key)

/-- The tests that the values of a column write, and the values that write none. -/
def alternatives (c : Compiler) (kind : Kind) (key : String) (values : List String) :
    List Predicate × List String :=
  (values.filterMap (predicate? c.grammar kind),
   (values.filter fun v => (predicate? c.grammar kind v).isNone).map fun v => key ++ "=" ++ v)

/-- The values of one name that should be a column. -/
def clause (c : Compiler) (acc : Compiled) (group : String × List String) : Compiled :=
  let (key, values) := group
  match c.resolve? key with
  | none => acc.reject key
  | some (relation, field) =>
    let (tests, rejected) := c.alternatives field.kind key values
    let acc := { acc with invalid := acc.invalid ++ rejected }
    if tests.isEmpty then acc else acc.addFilter ⟨relation, field.name, tests⟩

/-- One name in the list of relations to read. -/
def loadItem (c : Compiler) (acc : Compiled) (name : String) : Compiled :=
  match c.model.related? name with
  | some relation => acc.addLoad ⟨relation.name, none⟩
  | none => acc.reject name

/-- The relations to read: those named, or all for a star or an empty list. -/
def expand (c : Compiler) (acc : Compiled) (value : String) : Compiled :=
  let items := c.itemsOf value
  if items.isEmpty || items == ["*"] then
    { acc with query := { acc.query with related := c.model.relations.map fun r => ⟨r.name, none⟩ } }
  else items.foldl c.loadItem acc

/-- The first argument under either name for relations to read. -/
def expansion? (c : Compiler) (args : Arguments) : Option String :=
  (args.find? fun (k, _) => k == c.names.related || k == c.names.extended).map (·.2)

/-- The text to look for; blanks alone are none. -/
def searchTerm? (c : Compiler) (args : Arguments) : Option String := do
  let term := trim (← args.first? c.names.search).toList
  if term.isEmpty then none else some (String.ofList term)

/-- The query that a query string asks for. -/
def ofArguments (c : Compiler) (args : Arguments) : Compiled :=
  let args' := args.filter fun (k, _) => !c.names.isScalar k
  let sorted := args'.foldl c.directive {}
  let filters := args'.filter fun (k, _) => k != c.names.sort && k != c.names.fields
  let filtered := (grouped filters).foldl c.clause sorted
  let expanded :=
    match c.expansion? args with
    | some value => c.expand filtered value
    | none => filtered
  { expanded with query := { expanded.query with search := c.searchTerm? args } }

end RestTables.Compiler
