import RestTables.Rows.Condition
import RestTables.Rows.Read

/-
Module: RestTables.Rows.Related
Purpose: Reading along what a relation of many rows leads to, with one statement for up to 500 keys instead
  of one for each row.
Main exports: Rows.loadRelated
-/

namespace RestTables.Rows

open Sql

/-- The most keys in one statement. -/
def chunkSize : Nat := 500

/-- The different keys of records, by their plain text, each with its value; those without are left
out. -/
def distinctKeys (column : String) : (seen : List String) → List Record → List Value
  | _, [] => []
  | seen, r :: records =>
    match r.keyText column, r.get? column with
    | some key, some v =>
      if seen.contains key then distinctKeys column seen records
      else v :: distinctKeys column (key :: seen) records
    | _, _ => distinctKeys column seen records

/-- A list in parts of at most `size`, which is at least one. -/
def chunksOf (size : Nat) : List α → List (List α)
  | [] => []
  | a :: l => (a :: l.take (size - 1)) :: chunksOf size (l.drop (size - 1))
termination_by l => l.length
decreasing_by simp only [List.length_drop, List.length_cons]; omega

/-- The parts are the list, in order. -/
theorem flatten_chunksOf (size : Nat) (l : List α) : (chunksOf size l).flatten = l := by
  fun_induction chunksOf size l with
  | case1 => rfl
  | case2 a l ih => rw [List.flatten_cons, ih, List.cons_append, List.take_append_drop]

/-- The statement for the rows of a relation's target with some keys. -/
def relatedStatement (relation : Relation) (target : Model) (fields : List Field) (keys : List Value) :
    Select :=
  { table := target.table
    columns := fields.map (·.name)
    condition := .isIn ⟨target.table, relation.remoteKey⟩ keys false
    order := [⟨.column ⟨target.table, target.keyField.name⟩, false⟩]
    limit := none
    offset := none }

/-- The rows of a relation's target with some keys, part by part. -/
def relatedRows (relation : Relation) (target : Model) (fields : List Field) :
    List (List Value) → Session (List Record)
  | [] => pure []
  | keys :: rest => do
    let rows ← select (relatedStatement relation target fields keys) fields
    return rows ++ (← relatedRows relation target fields rest)

/-- What a relation leads to from a record, out of all rows that were read for it. -/
def relatedOf (relation : Relation) (rows : List Record) (projection : Option (List String)) (r : Record) :
    Related Record :=
  let own :=
    match r.keyText relation.localKey with
    | none => []
    | some key =>
      (rows.filter fun row => row.keyText relation.remoteKey == some key).map fun row =>
        { row with projection }
  match relation.cardinality with
  | .scalar => .one own.head?
  | .collection => .many own

/-- Records with what a relation leads to. -/
def loadRelated (g : Registry) (m : Model) (records : List Record) (load : Load) : Session (List Record) := do
  let (relation, target) ← (g.relationTarget m load.relation : Except StorageError _)
  let keys := distinctKeys relation.localKey [] records
  let fields := target.loadColumns (load.columns.getD []) [relation.remoteKey]
  let rows ← relatedRows relation target fields (chunksOf chunkSize keys)
  return records.map fun r =>
    { r with related := r.related ++ [(relation.name, relatedOf relation rows load.columns r)] }

end RestTables.Rows
