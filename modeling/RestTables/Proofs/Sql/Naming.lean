import RestTables.Proofs.Sql.Collation

/-
Module: RestTables.Proofs.Sql.Naming
Purpose: What the columns in nested queries stand for. A column is named with a table in front, and the innermost table
  so called is meant. Within a subquery whose own table is called like the one outside, the outer one is out of reach.
Main exports: Sight, Naming, Naming.place?, Naming.Captures, Collation.sortKey?, Collation.IsFirst,
  Collation.sortKey?_eq_some_value
-/

namespace RestTables.Sql

/-- A table in sight of a query, under the name that it has there. -/
structure Sight where
  name : String
  table : String

/-- What a database makes of names. Databases differ in whether names in another case are the same, and in what they
do where the table that is named lacks the column. -/
structure Naming where
  /-- Two names call the same table. -/
  sameTable : String → String → Bool
  /-- A table has a column of that name. -/
  hasColumn : (table name : String) → Bool
  /-- Where the table that is named lacks the column, the search goes on outside; or else the statement is refused. -/
  passesOver : Bool
  sameTable_self : ∀ name, sameTable name name = true

namespace Naming

/-- The place of the column's table among those in sight, the innermost first; none when the statement is refused. -/
def place? (N : Naming) (c : Column) : List Sight → Option Nat
  | [] => none
  | t :: outer =>
    if N.sameTable t.name c.table then
      if N.hasColumn t.table c.name then some 0
      else if N.passesOver then (N.place? c outer).map (· + 1)
      else none
    else (N.place? c outer).map (· + 1)

/-- What is in sight in a subquery on one table within a query on another. -/
def within (table root : String) : List Sight := [⟨relatedAlias, table⟩, ⟨root, root⟩]

/-- In a subquery on a table, a column of the table outside is no longer found: the name of the outer table calls the
inner one, which has such a column or stops the search. -/
def Captures (N : Naming) (table root column : String) : Prop :=
  N.sameTable relatedAlias root = true ∧ (N.hasColumn table column = true ∨ N.passesOver = false)

instance (N : Naming) (table root column : String) : Decidable (N.Captures table root column) :=
  inferInstanceAs (Decidable (_ ∧ _))

variable {N : Naming} {table root name : String}

/-- The innermost table is found by its name. -/
theorem place?_inner (h : N.hasColumn table name = true) :
    N.place? ⟨relatedAlias, name⟩ (within table root) = some 0 := by
  simp [place?, within, N.sameTable_self, h]

/-- The table outside is found where nothing within stands in the way. -/
theorem place?_outer (h : N.hasColumn root name = true) (hfree : ¬N.Captures table root name) :
    N.place? ⟨root, name⟩ (within table root) = some 1 := by
  have hroot : N.place? ⟨root, name⟩ [⟨root, root⟩] = some 0 := by simp [place?, N.sameTable_self, h]
  unfold within place?
  rw [hroot]
  unfold Captures at hfree
  split
  · next hsame =>
    have hpassed : N.hasColumn table name = false ∧ N.passesOver = true := by simpa [hsame] using hfree
    rw [if_neg (by simp [hpassed.1]), if_pos hpassed.2]
    rfl
  · rfl

/-- What is captured is never read from the table outside. -/
theorem place?_of_captures (h : N.Captures table root name) :
    N.place? ⟨root, name⟩ (within table root) = if N.hasColumn table name then some 0 else none := by
  obtain ⟨hsame, hstop⟩ := h
  unfold within place?
  rw [if_pos hsame]
  split
  · rfl
  · next hlacks =>
    have hstops : N.passesOver = false := hstop.resolve_left hlacks
    rw [if_neg (by simp [hstops])]

end Naming

namespace Collation

/-- The value of a column in the row at a place. -/
def valueAt (rows : List StoredRow) (place : Nat) (name : String) : Value :=
  ((rows[place]?).map (· name)).getD default

/-- What a part of an order sorts the rows of a table by, the names in it being looked up as they stand in the
statement; none when the statement is refused. -/
def sortKey? (C : Collation) (E : Engine) (N : Naming) (db : Database) (root : String) (item : SortItem) :
    Option (StoredRow → Option Value) :=
  match item.key with
  | .column c => (N.place? c [⟨root, root⟩]).map fun place row => (valueAt [row] place c.name).known?
  | .related field remoteKey table localKey => do
    let shown ← N.place? ⟨relatedAlias, field⟩ (Naming.within table root)
    let remote ← N.place? ⟨relatedAlias, remoteKey⟩ (Naming.within table root)
    let own ← N.place? localKey (Naming.within table root)
    return fun row =>
      let rows := (db table).filter fun row' =>
        E.Equal (valueAt [row', row] remote remoteKey) (valueAt [row', row] own localKey.name)
      C.first ⟨table, field⟩ item.descending
        (rows.filterMap fun row' => (valueAt [row', row] shown field).known?)

/-- The value comes first among some in a direction; there is none where there are none. -/
inductive IsFirst (C : Collation) (c : Column) (descending : Bool) (vs : List Value) : Option Value → Prop where
  | none (empty : vs = []) : IsFirst C c descending vs none
  | some {w : Value} (mem : w ∈ vs) (before : ∀ v ∈ vs, (C.compareIn c descending (some w) (some v)).isLE) :
    IsFirst C c descending vs (some w)

/-- The known values of a column in those rows of a table whose remote key equals a local key. -/
def relatedValues (E : Engine) (db : Database) (table field remoteKey : String) (key : Value) : List Value :=
  ((db table).filter fun row => E.Equal (row remoteKey) key).filterMap fun row => (row field).known?

variable {C : Collation} {E : Engine} {N : Naming} {db : Database} {root field remoteKey table localKey : String}
  {descending : Bool}

theorem isFirst_first (c : Column) (vs : List Value) : C.IsFirst c descending vs (C.first c descending vs) := by
  cases hfirst : C.first c descending vs with
  | none =>
    cases vs with
    | nil => exact .none rfl
    | cons v vs => cases hfirst
  | some w =>
    obtain ⟨hmem, hbefore⟩ := mem_of_first hfirst
    exact .some hmem hbefore

theorem mem_of_isFirst {c : Column} {vs : List Value} {w : Value} (h : C.IsFirst c descending vs (some w)) :
    w ∈ vs := by
  cases h with
  | some hmem _ => exact hmem

section Related

variable (hfield : N.hasColumn table field = true) (hremote : N.hasColumn table remoteKey = true)

include hfield hremote

/-- Where the outer table is in reach, rows are sorted by what their order means. -/
theorem sortKey?_eq_some_value (hlocal : N.hasColumn root localKey = true) (hfree : ¬N.Captures table root localKey) :
    C.sortKey? E N db root ⟨.related field remoteKey table ⟨root, localKey⟩, descending⟩ =
      some (C.value E db ⟨.related field remoteKey table ⟨root, localKey⟩, descending⟩) := by
  simp only [sortKey?, Naming.place?_inner hfield, Naming.place?_inner hremote, Naming.place?_outer hlocal hfree]
  rfl

/-- Where it is not, the key is compared with a column of the same row, if the statement is not refused. -/
theorem sortKey?_of_captures (hcaptures : N.Captures table root localKey) :
    C.sortKey? E N db root ⟨.related field remoteKey table ⟨root, localKey⟩, descending⟩ =
      if N.hasColumn table localKey then
        some fun _ => C.first ⟨table, field⟩ descending
          (((db table).filter fun row => E.Equal (row remoteKey) (row localKey)).filterMap fun row =>
            (row field).known?)
      else none := by
  simp only [sortKey?, Naming.place?_inner hfield, Naming.place?_inner hremote,
    Naming.place?_of_captures hcaptures]
  split <;> rfl

end Related

end Collation

end RestTables.Sql
