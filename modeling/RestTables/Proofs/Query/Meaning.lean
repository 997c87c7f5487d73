import RestTables.Proofs.Sql.Engine
import RestTables.Query.Predicate
import RestTables.Registry.Basic

/-
Module: RestTables.Proofs.Query.Meaning
Purpose: What a query asks of a row, without reference to the condition that is sent for it. A test holds only
  of values that are known, and one of a relation's column holds of some row that the relation leads to.
Main exports: Operator.Holds, Predicate.Holds, Model.LeadsTo, Filter.Holds, Query.Holds
-/

namespace RestTables

open Sql

namespace Sql.Engine

/-- Both values are known, and they differ. -/
def Differ (E : Engine) (a b : Value) : Prop :=
  a.isSqlNull = false ∧ b.isSqlNull = false ∧ E.equal a b = false

/-- Both values are known, and the first one is less. -/
def Less (E : Engine) (a b : Value) : Prop :=
  a.isSqlNull = false ∧ b.isSqlNull = false ∧ E.less a b = true

/-- A value is known, and its text contains a term, both in capitals. -/
def Contains (E : Engine) (v : Value) (term : String) : Prop :=
  v.isSqlNull = false ∧ term.toList.map E.upper <:+: (E.text v).map E.upper

end Sql.Engine

/-- What the operators of order say of two values; the others say nothing of them. -/
def Operator.Holds (E : Engine) (v w : Value) : Operator → Prop
  | .eq => E.Equal v w
  | .ne => E.Differ v w
  | .gt => E.Less w v
  | .ge => E.Less w v ∨ E.Equal v w
  | .lt => E.Less v w
  | .le => E.Less v w ∨ E.Equal v w
  | _ => False

/-- What a test says of a value. -/
def Predicate.Holds (E : Engine) (escape : Char) (v : Value) : Predicate → Prop
  | .compare op w => op.Holds E v w
  | .like pattern negated =>
    v.isSqlNull = false ∧ likeHolds (sameUpper E.upper) escape pattern.toList (E.text v) = !negated
  | .isIn values false => ∃ w ∈ values, E.Equal v w
  | .isIn values true => ∀ w ∈ values, E.Differ v w
  | .null negated => v.isSqlNull = !negated
  | .range low high false => (E.Less low v ∨ E.Equal v low) ∧ (E.Less v high ∨ E.Equal v high)
  | .range low high true => E.Less v low ∨ E.Less high v

section Rows

variable (E : Engine) (db : Database) (g : Registry) (m : Model)

/-- A relation leads from a row to a row of its target: the one's local key equals the other's remote key. -/
def Model.LeadsTo (name : String) (row row' : StoredRow) : Prop :=
  ∃ r ∈ m.relations, r.name = name ∧
    ∃ t, g.get? r.target = some t ∧ row' ∈ db t.table ∧ E.Equal (row r.localKey) (row' r.remoteKey)

/-- One of the tests holds of the row's column, or of the column in some row that the relation leads to. -/
def Filter.Holds (escape : Char) (row : StoredRow) (f : Filter) : Prop :=
  match f.relation with
  | none => ∃ p ∈ f.alternatives, p.Holds E escape (row f.field)
  | some name =>
    ∃ row', m.LeadsTo E db g name row row' ∧ ∃ p ∈ f.alternatives, p.Holds E escape (row' f.field)

/-- All that a query asks of a row. -/
structure Query.Holds (escape : Char) (q : Query) (join : Join) (row : StoredRow) : Prop where
  filters : ∀ f ∈ q.filters, f.Holds E db g m escape row
  search : ∀ term, q.search = some term → m.searchable ≠ [] →
    ∃ name ∈ m.searchable, E.Contains (row name) term
  joined : join = .inner → ∀ l ∈ q.related, ∃ row', m.LeadsTo E db g l.relation row row'

end Rows

end RestTables
