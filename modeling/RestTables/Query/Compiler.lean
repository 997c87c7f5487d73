import RestTables.Query.Grammar
import RestTables.Query.Predicate
import RestTables.Registry.Basic
import RestTables.Value.Coerce

/-
Module: RestTables.Query.Compiler
Purpose: What both ways of asking share: the resource that is asked, the names that lead to its columns and
  to those of its relations, and a query that grows along with the list of what was not understood.
Main exports: Compiler, Compiler.resolve?, Compiled
-/

namespace RestTables

/-- Who is asked, and in what vocabulary. -/
structure Compiler where
  registry : Registry
  model : Model
  grammar : Grammar := {}
  names : ArgumentNames := {}

/-- A query, and every part of the request that is not in it because it does not fit. -/
structure Compiled where
  query : Query := {}
  invalid : List String := []
deriving Repr, DecidableEq, Inhabited

namespace Compiled

/-- Reports a part of the request. -/
def reject (c : Compiled) (part : String) : Compiled := { c with invalid := c.invalid ++ [part] }

/-- Shows one more column. -/
def addField (c : Compiled) (name : String) : Compiled :=
  { c with query := { c.query with fields := c.query.fields ++ [name] } }

/-- Sorts by one more column. -/
def addOrder (c : Compiled) (o : Order) : Compiled :=
  { c with query := { c.query with orders := c.query.orders ++ [o] } }

/-- Tests one more column. -/
def addFilter (c : Compiled) (f : Filter) : Compiled :=
  { c with query := { c.query with filters := c.query.filters ++ [f] } }

/-- Reads one more relation. -/
def addLoad (c : Compiled) (l : Load) : Compiled :=
  { c with query := { c.query with related := c.query.related ++ [l] } }

end Compiled

namespace Compiler

/-- The target of a relation of the resource. -/
def target? (c : Compiler) (relation : Relation) : Option Model := c.registry.get? relation.target

/-- The column that a name means, of the resource itself or, behind the name of a relation and a point,
of its target. -/
def resolve? (c : Compiler) (name : String) : Option (Option String × Field) :=
  match c.model.column? name with
  | some field => some (none, field)
  | none => do
    let (relation, field) ← Text.cut? '.' name.toList
    let relation ← c.model.related? (String.ofList relation)
    let field ← (← c.target? relation).column? (String.ofList field)
    some (some relation.name, field)

end Compiler

end RestTables
