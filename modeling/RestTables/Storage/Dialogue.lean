import RestTables.Sql.Statement
import RestTables.Storage.Error

/-
Module: RestTables.Storage.Dialogue
Purpose: Talking to a database. A dialogue is what is said next for every answer; it is a value, so that one
  can say what happens whatever the database answers.
Main exports: Dialogue, Dialogue.bind, Session, Session.query, Session.execute
-/

namespace RestTables

/-- A row of an answer: its cells by column, absent ones left out. -/
abbrev Cells := List (String × Value)

/-- What a statement without rows has done. -/
structure Effect where
  lastId : Nat
  affected : Nat
deriving Repr, DecidableEq, Inhabited

/-- Statements that bracket others. -/
inductive Mark where
  | begin
  | commit
  | rollback
deriving Repr, DecidableEq

/-- What is said to a database, depending on its answers, and a result in the end. -/
inductive Dialogue (α : Type) where
  | done (a : α)
  | query (s : Sql.Statement) (next : Except StorageError (List Cells) → Dialogue α)
  | execute (s : Sql.Statement) (next : Except StorageError Effect → Dialogue α)
  | mark (m : Mark) (next : Dialogue α)

namespace Dialogue

/-- One dialogue after another. -/
def bind : Dialogue α → (α → Dialogue β) → Dialogue β
  | .done a, f => f a
  | .query s next, f => .query s fun r => bind (next r) f
  | .execute s next, f => .execute s fun r => bind (next r) f
  | .mark m next, f => .mark m (bind next f)

instance : Monad Dialogue where
  pure := .done
  bind := bind

@[simp] theorem bind_done (a : α) (f : α → Dialogue β) : (Dialogue.done a).bind f = f a := rfl

theorem bind_pure (d : Dialogue α) : d.bind .done = d := by
  induction d with
  | done a => rfl
  | query s next ih => simp [bind, ih]
  | execute s next ih => simp [bind, ih]
  | mark m next ih => simp [bind, ih]

theorem bind_assoc (d : Dialogue α) (f : α → Dialogue β) (g : β → Dialogue γ) :
    (d.bind f).bind g = d.bind fun a => (f a).bind g := by
  induction d with
  | done a => rfl
  | query s next ih => simp [bind, ih]
  | execute s next ih => simp [bind, ih]
  | mark m next ih => simp [bind, ih]

/-- Says one of the bracketing statements. -/
def say (m : Mark) : Dialogue Unit := .mark m (.done ())

end Dialogue

/-- A dialogue that ends when a statement fails. -/
abbrev Session := ExceptT StorageError Dialogue

namespace Session

/-- Asks for rows. -/
def query (s : Sql.Statement) : Session (List Cells) := ExceptT.mk (.query s .done)

/-- Asks for one row; further rows are not looked at. -/
def queryOne (s : Sql.Statement) : Session (Option Cells) := do return (← query s).head?

/-- Has a statement done. -/
def execute (s : Sql.Statement) : Session Effect := ExceptT.mk (.execute s .done)

end Session

/-! ## Cells -/

namespace Cells

/-- The value of a column of a kind. What is absent or of another type reads as NULL. -/
def decode (cells : Cells) (name : String) (kind : Kind) : Value :=
  match cells.lookup name with
  | some v => if v.hasKind kind then v else .null kind
  | none => .null kind

@[simp] theorem hasKind_decode (cells : Cells) (name : String) (kind : Kind) :
    (cells.decode name kind).hasKind kind = true := by
  unfold decode
  split
  · split
    · assumption
    · simp
  · simp

/-- The text of a column, if there is one. -/
def text? (cells : Cells) (name : String) : Option String :=
  match cells.lookup name with
  | some (.string s) => s
  | _ => none

/-- The whole number of a column, if there is one. -/
def int? (cells : Cells) (name : String) : Option Int :=
  match cells.lookup name with
  | some (.bigInt n) => n.map (·.toInt)
  | _ => none

/-- The text of a column that must have one. -/
def text (cells : Cells) (name : String) : Except StorageError String :=
  match cells.text? name with
  | some s => .ok s
  | none => .error (.nullCell name)

/-- The whole number of a column that must have one. -/
def int (cells : Cells) (name : String) : Except StorageError Int :=
  match cells.int? name with
  | some n => .ok n
  | none => .error (.nullCell name)

end Cells

end RestTables
