import RestTables.Query.Predicate
import RestTables.Query.Grammar
import RestTables.Registry.Basic
import RestTables.Sql.Statement
import RestTables.Storage.Error

/-
Module: RestTables.Rows.Condition
Purpose: Queries as conditions and orders of statements. A test of a relation's column becomes a search in
  the relation's table for a row that meets it.
Main exports: Registry.relationTarget, Query.condition, Query.order
-/

namespace RestTables

open Sql

/-- A relation of a model and the model that it leads to. -/
def Registry.relationTarget (g : Registry) (m : Model) (name : String) :
    Except StorageError (Relation × Model) :=
  match m.related? name with
  | none => .error (.custom s!"{m.name} has no relation '{name}'")
  | some relation =>
    match g.get? relation.target with
    | none => .error (.custom s!"unknown model '{relation.target}'")
    | some target => .ok (relation, target)

/-- The comparison of an operator; only those of order have one of their own. -/
def Operator.comparison : Operator → Comparison
  | .ne => .ne
  | .gt => .gt
  | .ge => .ge
  | .lt => .lt
  | .le => .le
  | _ => .eq

/-- A test of a column as a condition. -/
def Predicate.condition (escape : Char) (column : Column) : Predicate → Condition
  | .compare op v => .compare column op.comparison v
  | .like pattern negated => .like column pattern escape negated
  | .isIn values negated => .isIn column values negated
  | .null negated => .isNull column negated
  | .range low high false => .between column low high
  | .range low high true => .any [.compare column .lt low, .compare column .gt high]

/-- One of the tests of a column holds. -/
def Filter.condition (escape : Char) (table : String) (f : Filter) : Condition :=
  .any (f.alternatives.map (Predicate.condition escape ⟨table, f.field⟩))

/-- The relation leads to a row that meets a condition, if there is one. -/
def relatedCondition (m : Model) (relation : Relation) (target : Model) (inner : Option Condition) :
    Condition :=
  .isInTable ⟨m.table, relation.localKey⟩ (.mk relation.remoteKey target.table inner)

namespace Query

/-- A filter as a condition on the rows of a model. -/
def filterCondition (g : Registry) (m : Model) (grammar : Grammar) (f : Filter) :
    Except StorageError Condition :=
  match f.relation with
  | none => .ok (f.condition grammar.escape m.table)
  | some name => do
    let (relation, target) ← g.relationTarget m name
    return relatedCondition m relation target (some (f.condition grammar.escape relatedAlias))

/-- One of the columns that can be searched holds the text; nothing when there are none. -/
def searchCondition (m : Model) (grammar : Grammar) (term : Option String) : List Condition :=
  match term with
  | none => []
  | some term =>
    if m.searchable.isEmpty then []
    else
      let pattern := String.ofList ('%' :: grammar.escapeLike term.toList ++ ['%'])
      [.any (m.searchable.map fun name => .like ⟨m.table, name⟩ pattern grammar.escape false)]

/-- Every relation that is read along leads to a row. -/
def joinConditions (g : Registry) (m : Model) (loads : List Load) (join : Join) :
    Except StorageError (List Condition) :=
  match join with
  | .outer => .ok []
  | .inner => loads.mapM fun load => do
    let (relation, target) ← g.relationTarget m load.relation
    return relatedCondition m relation target none

/-- All that the rows of a query must meet. -/
def condition (g : Registry) (m : Model) (q : Query) (join : Join) (grammar : Grammar) :
    Except StorageError Condition := do
  let filters ← q.filters.mapM (filterCondition g m grammar)
  let joins ← joinConditions g m q.related join
  return .all (filters ++ searchCondition m grammar q.search ++ joins)

/-- One column of an order. A column of a relation's target sorts by its least value, or by its
greatest when the order goes down. -/
def sortItem (g : Registry) (m : Model) (o : Order) : Except StorageError SortItem :=
  match o.relation with
  | none => .ok ⟨.column ⟨m.table, o.field⟩, o.descending⟩
  | some name => do
    let (relation, target) ← g.relationTarget m name
    return ⟨.related o.field relation.remoteKey target.table ⟨m.table, relation.localKey⟩, o.descending⟩

/-- The order of a query. It ends with the key, unless that is in it, so that it leaves nothing open. -/
def order (g : Registry) (m : Model) (orders : List Order) : Except StorageError (List SortItem) := do
  let items ← orders.mapM (sortItem g m)
  if orders.any fun o => o.relation.isNone && o.field == m.keyField.name then return items
  else return items ++ [⟨.column ⟨m.table, m.keyField.name⟩, false⟩]

end Query

end RestTables
