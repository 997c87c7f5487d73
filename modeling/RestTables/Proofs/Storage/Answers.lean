import RestTables.Proofs.Storage.Exchange

/-
Module: RestTables.Proofs.Storage.Answers
Purpose: Dialogues with a database that answers every query by itself, so that a query that is asked twice is
  answered alike.
Main exports: Answers, Dialogue.resultOf, Dialogue.statementsOf, Dialogue.exists_of_resultOf_bind,
  Dialogue.resultOf_except_bind, Dialogue.statementsOf_except_bind
-/

namespace RestTables

open Sql (Statement)

/-- The answers of a database that does not change. -/
abbrev Answers := Statement → Except StorageError (List Cells)

namespace Dialogue

/-- The result of a dialogue in which queries are answered so. What changes rows has no effect. -/
def resultOf (answers : Answers) : Dialogue α → α
  | .done a => a
  | .query s next => resultOf answers (next (answers s))
  | .execute _ next => resultOf answers (next (.ok default))
  | .mark _ next => resultOf answers next

/-- The statements that are sent in it, in order. -/
def statementsOf (answers : Answers) : Dialogue α → List Statement
  | .done _ => []
  | .query s next => s :: statementsOf answers (next (answers s))
  | .execute s next => s :: statementsOf answers (next (.ok default))
  | .mark _ next => statementsOf answers next

variable {answers : Answers}

theorem resultOf_bind (d : Dialogue α) (f : α → Dialogue β) :
    resultOf answers (d.bind f) = resultOf answers (f (resultOf answers d)) := by
  induction d with
  | done a => rfl
  | query s next ih => exact ih (answers s)
  | execute s next ih => exact ih (.ok default)
  | mark m next ih => exact ih

theorem statementsOf_bind (d : Dialogue α) (f : α → Dialogue β) :
    statementsOf answers (d.bind f) = statementsOf answers d ++ statementsOf answers (f (resultOf answers d)) := by
  induction d with
  | done a => rfl
  | query s next ih => exact congrArg (s :: ·) (ih (answers s))
  | execute s next ih => exact congrArg (s :: ·) (ih (.ok default))
  | mark m next ih => exact ih

section Except

variable {x : ExceptT ε Dialogue α} {f : α → ExceptT ε Dialogue β}

/-- What is said in two parts has the result of the second, unless the first one fails. -/
theorem resultOf_run_bind :
    resultOf answers (x >>= f).run = resultOf answers x.run >>= fun a => resultOf answers (f a).run := by
  have hrun : (x >>= f).run = Dialogue.bind x.run (ExceptT.bindCont f) := rfl
  rw [hrun, resultOf_bind]
  cases resultOf answers x.run with
  | ok a => rfl
  | error e => rfl

/-- What succeeds in two parts succeeds in each. -/
theorem exists_of_resultOf_bind {b : β} (h : resultOf answers (x >>= f).run = .ok b) :
    ∃ a, resultOf answers x.run = .ok a ∧ resultOf answers (f a).run = .ok b := by
  rw [resultOf_run_bind] at h
  cases hx : resultOf answers x.run with
  | error e =>
    rw [hx] at h
    cases h
  | ok a =>
    rw [hx] at h
    exact ⟨a, rfl, h⟩

/-- What follows a success. -/
theorem resultOf_except_bind {a : α} (h : resultOf answers x.run = .ok a) :
    resultOf answers (x >>= f).run = resultOf answers (f a).run := by
  have hrun : (x >>= f).run = Dialogue.bind x.run (ExceptT.bindCont f) := rfl
  rw [hrun, resultOf_bind, h]
  rfl

theorem statementsOf_except_bind {a : α} (h : resultOf answers x.run = .ok a) :
    statementsOf answers (x >>= f).run = statementsOf answers x.run ++ statementsOf answers (f a).run := by
  have hrun : (x >>= f).run = Dialogue.bind x.run (ExceptT.bindCont f) := rfl
  rw [hrun, statementsOf_bind, h]
  rfl

/-- A choice that has been made already. -/
theorem resultOf_lift_bind {e : Except ε α} {a : α} (h : e = .ok a) :
    resultOf answers ((liftM e : ExceptT ε Dialogue α) >>= f).run = resultOf answers (f a).run := by
  subst h
  rfl

theorem statementsOf_lift_bind {e : Except ε α} {a : α} (h : e = .ok a) :
    statementsOf answers ((liftM e : ExceptT ε Dialogue α) >>= f).run = statementsOf answers (f a).run := by
  subst h
  rfl

end Except

section Session

variable {s : Statement} {found : List Cells} (h : answers s = .ok found)

include h

theorem resultOf_query : resultOf answers (Session.query s).run = .ok found := h

theorem resultOf_queryOne : resultOf answers (Session.queryOne s).run = .ok found.head? :=
  resultOf_except_bind (resultOf_query h)

end Session

end Dialogue

end RestTables
