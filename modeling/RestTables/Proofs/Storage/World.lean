import Mathlib.Logic.Relation
import RestTables.Proofs.Storage.History

/-
Module: RestTables.Proofs.Storage.World
Purpose: Any number of clients at one database. New dialogues begin at any time, and those that are under way
  go on in any order: one statement at a time, but from a begin to its end without a break.
Main exports: World, World.Transacts, World.Step, World.Reaches, World.Reaches.preserves
-/

namespace RestTables

open Sql (Database Engine)

/-- A database, and the dialogues that are under way. -/
structure World (α : Type) where
  db : Database
  dialogues : List (Dialogue α)

namespace World

/-- A dialogue says a whole transaction, which ends with some mark. The rest of the dialogue follows later,
and `db` is what the statements in the transaction have made of the database. -/
structure Transacts (E : Engine) (w : World α) (i : Nat) (log : List Exchange) (end_ : Mark) (rest : Dialogue α)
    (db : Database) : Prop where
  path : ∃ d, w.dialogues[i]? = some d ∧ d.Path (.mark .begin :: log ++ [.mark end_]) rest
  history : E.History w.db log db

/-- What may happen next. -/
inductive Step (E : Engine) (w : World α) : World α → Prop
  | arrive (d : Dialogue α) : Step E w ⟨w.db, w.dialogues ++ [d]⟩
  | statement {i : Nat} {d d' : Dialogue α} {x : Exchange} {db : Database} (at_ : w.dialogues[i]? = some d)
    (step : d.Step x d') (answers : E.Answers w.db x db) : Step E w ⟨db, w.dialogues.set i d'⟩
  | commit {i : Nat} {log : List Exchange} {rest : Dialogue α} {db : Database}
    (transacts : w.Transacts E i log .commit rest db) : Step E w ⟨db, w.dialogues.set i rest⟩
  | rollback {i : Nat} {log : List Exchange} {rest : Dialogue α} {db : Database}
    (transacts : w.Transacts E i log .rollback rest db) : Step E w ⟨w.db, w.dialogues.set i rest⟩

/-- What may have happened after a while. -/
def Reaches (E : Engine) : World α → World α → Prop := Relation.ReflTransGen (Step E)

variable {E : Engine} {w w' : World α} {P : Database → Prop}

/-- Whatever happens next, what is enforced stays true. -/
theorem Step.preserves (hP : E.Enforces P) (h : Step E w w') (hw : P w.db) : P w'.db := by
  cases h with
  | arrive d => exact hw
  | statement at_ step answers => exact answers.preserves hP hw
  | commit transacts => exact transacts.history.preserves hP hw
  | rollback transacts => exact hw

/-- Whatever has happened, what is enforced has stayed true. -/
theorem Reaches.preserves (hP : E.Enforces P) (h : Reaches E w w') (hw : P w.db) : P w'.db := by
  induction h with
  | refl => exact hw
  | tail _ step ih => exact step.preserves hP ih

end World

end RestTables
