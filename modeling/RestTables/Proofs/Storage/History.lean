import RestTables.Proofs.Sql.Execution
import RestTables.Proofs.Storage.Exchange

/-
Module: RestTables.Proofs.Storage.History
Purpose: Exchanges with a database that an engine runs. The engine answers truthfully or fails; a failure
  leaves the database as it was. What an engine enforces stays true through every history.
Main exports: Engine.Answers, Engine.History, Engine.Enforces, History.preserves
-/

namespace RestTables.Sql.Engine

/-- The engine answers, and leaves a database. Any statement may fail; one that would leave a database that
violates a constraint always does. -/
inductive Answers (E : Engine) (db : Database) : Exchange → Database → Prop
  | rows {s : Statement} (permitted : E.permits db s) : Answers E db (.query s (.ok (E.rows db s))) (E.next db s)
  | effect {s : Statement} (permitted : E.permits db s) :
    Answers E db (.execute s (.ok (E.effect db s))) (E.next db s)
  | noRows (s : Statement) (e : StorageError) : Answers E db (.query s (.error e)) db
  | noEffect (s : Statement) (e : StorageError) : Answers E db (.execute s (.error e)) db

/-- The exchanges that a database sees, one after the other. -/
def History (E : Engine) : Database → List Exchange → Database → Prop
  | db, [], db' => db' = db
  | db, x :: log, db' => ∃ mid, E.Answers db x mid ∧ History E mid log db'

/-- Nothing is left that a constraint forbids, and the constraints are such that a property holds. -/
def Enforces (E : Engine) (P : Database → Prop) : Prop := ∀ db, E.refusal? db = none → P db

variable {E : Engine} {db db' : Database} {x : Exchange} {log : List Exchange}

@[simp] theorem history_nil : E.History db [] db' ↔ db' = db := Iff.rfl

@[simp] theorem history_cons :
    E.History db (x :: log) db' ↔ ∃ mid, E.Answers db x mid ∧ E.History mid log db' := Iff.rfl

/-- The database after a statement is the one it leaves when it succeeds, or the same as before. -/
theorem Answers.next_or_same (h : E.Answers db x db') :
    (∃ s, x.statement? = some s ∧ x.succeeds = true ∧ E.permits db s ∧ db' = E.next db s) ∨
      x.succeeds = false ∧ db' = db := by
  cases h with
  | rows permitted => exact .inl ⟨_, rfl, rfl, permitted, rfl⟩
  | effect permitted => exact .inl ⟨_, rfl, rfl, permitted, rfl⟩
  | noRows s e => exact .inr ⟨rfl, rfl⟩
  | noEffect s e => exact .inr ⟨rfl, rfl⟩

/-- A statement that is permitted has its effect. -/
theorem answers_execute {s : Statement} {effect : Effect} (permitted : E.refusal? db' = none)
    (heffect : E.effect db s = effect) (hnext : E.next db s = db') : E.Answers db (.execute s (.ok effect)) db' := by
  subst heffect hnext
  exact .effect fun _ => permitted

/-- A statement that is no write is answered with its rows, and the database stays as it is. -/
theorem answers_query {s : Statement} {rows : List Cells} (hs : s.isWrite = false) (hrows : E.rows db s = rows) :
    E.Answers db (.query s (.ok rows)) db := by
  subst hrows
  have hanswers : E.Answers db (.query s (.ok (E.rows db s))) (E.next db s) := .rows fun hwrite => by simp [hs] at hwrite
  rwa [next_of_not_isWrite hs] at hanswers

/-- What is sent in answer to a statement. -/
theorem Answers.rows_eq {s : Statement} {rows : List Cells} (h : E.Answers db (.query s (.ok rows)) db') :
    rows = E.rows db s := by
  cases h
  rfl

/-- A statement that is no write leaves the database as it is. -/
theorem Answers.eq_of_not_isWrite (h : E.Answers db x db') (hx : x.isWrite = false) : db' = db := by
  rcases h.next_or_same with ⟨s, hs, -, -, rfl⟩ | ⟨-, rfl⟩
  · exact next_of_not_isWrite (by simpa [Exchange.isWrite, hs] using hx)
  · rfl

/-- So does a list of them. -/
theorem History.eq_of_not_isWrite (h : E.History db log db') (hlog : ∀ x ∈ log, x.isWrite = false) :
    db' = db := by
  induction log generalizing db with
  | nil => exact h
  | cons x log ih =>
    obtain ⟨mid, hx, hrest⟩ := h
    obtain ⟨hxw, hlogw⟩ := List.forall_mem_cons.mp hlog
    rw [ih hrest hlogw, hx.eq_of_not_isWrite hxw]

/-- One statement keeps true what is enforced. -/
theorem Answers.preserves {P : Database → Prop} (hP : E.Enforces P) (h : E.Answers db x db') (hdb : P db) :
    P db' := by
  rcases h.next_or_same with ⟨s, -, -, permitted, rfl⟩ | ⟨-, rfl⟩
  · cases hw : s.isWrite with
    | true => exact hP _ (permitted hw)
    | false => rwa [next_of_not_isWrite hw]
  · exact hdb

/-- A history keeps true what is enforced. -/
theorem History.preserves {P : Database → Prop} (hP : E.Enforces P) (h : E.History db log db') (hdb : P db) :
    P db' := by
  induction log generalizing db with
  | nil =>
    rw [history_nil.mp h]
    exact hdb
  | cons x log ih =>
    obtain ⟨mid, hx, hrest⟩ := h
    exact ih hrest (hx.preserves hP hdb)

end RestTables.Sql.Engine
