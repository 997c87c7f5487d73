import RestTables.Proofs.Storage.History
import RestTables.Rows.Write

/-
Module: RestTables.Proofs.Rows.Statements
Purpose: What is said to a database when rows are read and changed: one statement each, or none, and what is
  made of its answer. An insert is read back where the database does not send the new row.
Main exports: Rows.says_selectOne_iff, Rows.says_findByKey_iff, Rows.says_update_iff, Rows.says_delete_iff,
  Rows.says_insert
-/

namespace RestTables

open Sql Dialogue

/-- The row that a model's columns make of a stored row. -/
def Model.recordOf (m : Model) (row : StoredRow) : Record :=
  Rows.ofCells m.columns (row.cells (m.columns.map (·.name)))

namespace Session

variable {s : Statement} {log : List Exchange}

theorem says_query_iff {a : Except StorageError (List Cells)} :
    Says (query s).run log a ↔ log = [.query s a] := by
  simp [query]

theorem says_execute_iff {a : Except StorageError Effect} :
    Says (execute s).run log a ↔ log = [.execute s a] := by
  simp [execute]

end Session

namespace Rows

variable {m : Model} {log : List Exchange}

/-- The statement that looks for the row with a key. -/
def keyStatement (m : Model) (key : Value) : Statement := .select (oneStatement m (.all [m.keyCondition key]))

/-- The first of the rows that cells make. -/
def firstOf (m : Model) (rows : List Cells) : Option Record := rows.head?.map (ofCells m.columns)

/-- One row is looked for with one statement. -/
theorem says_selectOne_iff {c : Condition} {a : Except StorageError (Option Record)} :
    Says (selectOne m c).run log a ↔
      ∃ r, log = [.query (.select (oneStatement m c)) r] ∧ a = r.map (firstOf m) := by
  have hmap : selectOne m c = firstOf m <$> Session.query (.select (oneStatement m c)) := by
    simp only [selectOne, select, bind_pure_comp, Functor.map_map, List.head?_map]
    rfl
  simp only [hmap, says_except_map_iff, Session.says_query_iff]

/-- The row with a key is looked for with one statement. -/
theorem says_findByKey_iff {id : String} {key : Value} (hkey : m.keyValue? id = some key)
    {a : Except StorageError (Option Record)} :
    Says (findByKey m id).run log a ↔ ∃ r, log = [.query (keyStatement m key) r] ∧ a = r.map (firstOf m) := by
  simp only [findByKey, hkey, says_selectOne_iff, keyStatement]

/-- Nothing is said when there is nothing to change, and one statement otherwise. -/
theorem says_update_iff {key : Value} {changes : List (String × Value)} {a : Except StorageError Unit} :
    Says (update m key changes).run log a ↔
      (changes = [] ∧ log = [] ∧ a = .ok ()) ∨
      changes ≠ [] ∧ ∃ r, log = [.execute (.update m.table changes (.all [m.keyCondition key])) r] ∧
        a = r.map fun _ => () := by
  cases changes with
  | nil =>
    simp only [update, List.isEmpty_nil, ↓reduceIte, true_and, ne_eq, not_true_eq_false, false_and, or_false]
    exact says_pure_iff
  | cons change changes =>
    simp only [update, List.isEmpty_cons, Bool.false_eq_true, ↓reduceIte, says_discard_iff,
      Session.says_execute_iff, reduceCtorEq, false_and, ne_eq, not_false_eq_true, true_and, false_or]

/-- One statement deletes. -/
theorem says_delete_iff {key : Value} {a : Except StorageError Nat} :
    Says (delete m key).run log a ↔
      ∃ r, log = [.execute (.delete m.table (.all [m.keyCondition key])) r] ∧ a = r.map (·.affected) := by
  have hmap : delete m key =
      (·.affected) <$> Session.execute (.delete m.table (.all [m.keyCondition key])) := by
    simp [delete, bind_pure_comp]
  simp only [hmap, says_except_map_iff, Session.says_execute_iff]

/-- The statement that inserts a row. -/
def insertStatement (m : Model) (row : List (String × Value)) : Statement :=
  .insert m.table row (m.columns.map (·.name))

/-- The new row, which must be there. -/
def inserted (r : Option Record) : Except StorageError Record :=
  match r with
  | some r => .ok r
  | none => .error .recordNotInserted

variable {b : Backend} {row : List (String × Value)} {a : Except StorageError Record}

/-- Where the database sends the new row, one statement inserts it. -/
theorem says_insert_iff_of_returnsRows (hb : b.returnsRows = true) :
    Says (insert b m row).run log a ↔
      ∃ r, log = [.query (insertStatement m row) r] ∧ a = r.bind fun rows => inserted (firstOf m rows) := by
  have hrun : (insert b m row).run =
      .query (insertStatement m row) fun r => .done (r.bind fun rows => inserted (firstOf m rows)) := by
    unfold insert
    rw [if_pos hb]
    refine congrArg (Dialogue.query _) (funext fun r => ?_)
    rcases r with e | (_ | ⟨cells, more⟩) <;> rfl
  simp [hrun]

/-- Elsewhere the new row is looked for by its key when the insert has succeeded. -/
theorem says_insert_iff_of_not_returnsRows (hb : b.returnsRows = false) :
    Says (insert b m row).run log a ↔
      (∃ e, log = [.execute (insertStatement m row) (.error e)] ∧ a = .error e) ∨
      ∃ effect r, log = [.execute (insertStatement m row) (.ok effect),
          .query (keyStatement m (insertedKey m row effect)) r] ∧
        a = r.bind fun rows => inserted (firstOf m rows) := by
  -- The insert as a dialogue without binds, from which the logs can be read off.
  have hrun : (insert b m row).run = .execute (insertStatement m row) fun
      | .error e => .done (.error e)
      | .ok effect => .query (keyStatement m (insertedKey m row effect)) fun r =>
        .done (r.bind fun rows => inserted (firstOf m rows)) := by
    unfold insert
    rw [if_neg (by simp [hb])]
    refine congrArg (Dialogue.execute _) (funext fun effect => ?_)
    rcases effect with e | effect
    · rfl
    · refine congrArg (Dialogue.query _) (funext fun r => ?_)
      rcases r with e | (_ | ⟨cells, more⟩) <;> rfl
  rw [hrun, says_execute_iff]
  constructor
  · rintro ⟨effect, rest, rfl, h⟩
    cases effect with
    | error e =>
      obtain ⟨rfl, rfl⟩ := says_done_iff.mp h
      exact .inl ⟨e, rfl, rfl⟩
    | ok effect =>
      obtain ⟨r, _, rfl, hdone⟩ := says_query_iff.mp h
      obtain ⟨rfl, rfl⟩ := says_done_iff.mp hdone
      exact .inr ⟨effect, r, rfl, rfl⟩
  · rintro (⟨e, rfl, rfl⟩ | ⟨effect, r, rfl, rfl⟩)
    · exact ⟨.error e, [], rfl, says_done_iff.mpr ⟨rfl, rfl⟩⟩
    · exact ⟨.ok effect, _, rfl, says_query_iff.mpr ⟨r, [], rfl, says_done_iff.mpr ⟨rfl, rfl⟩⟩⟩

/-- An insert is the first thing that is said, and the only one that changes rows. -/
theorem says_insert (h : Says (insert b m row).run log a) :
    ∃ x rest, log = x :: rest ∧ x.statement? = some (insertStatement m row) ∧
      ∀ y ∈ rest, y.isMark = false ∧ y.isWrite = false := by
  cases hb : b.returnsRows with
  | true =>
    obtain ⟨r, rfl, -⟩ := (says_insert_iff_of_returnsRows hb).mp h
    exact ⟨_, [], rfl, rfl, by simp⟩
  | false =>
    rcases (says_insert_iff_of_not_returnsRows hb).mp h with ⟨e, rfl, -⟩ | ⟨effect, r, rfl, -⟩
    · exact ⟨_, [], rfl, rfl, by simp⟩
    · refine ⟨_, _, rfl, rfl, ?_⟩
      simp [Exchange.isMark, Exchange.isWrite, Exchange.statement?, keyStatement, Statement.isWrite]

/-! ## How much is written -/

theorem within_selectOne (m : Model) (c : Condition) : Within (selectOne m c).run 0 := by
  intro log a hs
  obtain ⟨r, rfl, -⟩ := says_selectOne_iff.mp hs
  simp [Exchange.isMark, Exchange.isWrite, Exchange.statement?, Statement.isWrite]

theorem within_findByKey (m : Model) (id : String) : Within (findByKey m id).run 0 := by
  unfold findByKey
  split
  · exact within_done
  · exact within_selectOne m _

theorem within_findMatching (m : Model) (data : List (String × Value)) :
    Within (findMatching m data).run 0 := within_selectOne m _

theorem within_update (m : Model) (key : Value) (changes : List (String × Value)) :
    Within (update m key changes).run 1 := by
  intro log a hs
  rcases says_update_iff.mp hs with ⟨-, rfl, -⟩ | ⟨-, r, rfl, -⟩
  · simp
  · simp [Exchange.isMark, Exchange.isWrite, Exchange.statement?, Statement.isWrite]

theorem within_delete (m : Model) (key : Value) : Within (delete m key).run 1 := by
  intro log a hs
  obtain ⟨r, rfl, -⟩ := says_delete_iff.mp hs
  simp [Exchange.isMark, Exchange.isWrite, Exchange.statement?, Statement.isWrite]

theorem within_insert (b : Backend) (m : Model) (row : List (String × Value)) :
    Within (insert b m row).run 1 := by
  intro log a hs
  obtain ⟨x, rest, rfl, hx, hrest⟩ := says_insert hs
  constructor
  · intro y hy
    rcases List.mem_cons.mp hy with rfl | hy
    · simp [Exchange.isMark, hx]
    · exact (hrest y hy).1
  · have hcount : rest.countP Exchange.isWrite = 0 := by
      simpa [List.countP_eq_zero] using fun y hy => (hrest y hy).2
    rw [List.countP_cons, hcount]
    split <;> omega

end Rows

end RestTables
