import RestTables.Sql.Printer
import RestTables.Storage.Script

/-
Module: RestTables.Proofs.Sql.FirstWord
Purpose: The first word of a statement tells what it does, on every database. A log need not be read any
  further to know which of its statements change rows.
Main exports: firstWord, Statement.verb, Statement.firstWord_text, Event.isWrite, Statement.isWriteText_text
-/

namespace RestTables

namespace Sql

/-- The text up to the first space. -/
def firstWord (text : String) : List Char := text.toList.takeWhile (· != ' ')

/-- The word that a statement begins with. -/
def Statement.verb : Statement → List Char
  | .insert .. => ['I', 'N', 'S', 'E', 'R', 'T']
  | .update .. => ['U', 'P', 'D', 'A', 'T', 'E']
  | .delete .. => ['D', 'E', 'L', 'E', 'T', 'E']
  | .catalog (.liteIndexes _) | .catalog (.liteIndexColumns _) | .catalog (.liteColumns _)
  | .catalog (.liteForeignKeys _) => ['P', 'R', 'A', 'G', 'M', 'A']
  | .select _ | .count .. | .catalog _ => ['S', 'E', 'L', 'E', 'C', 'T']

/-- What comes behind a space does not change the first word. -/
theorem firstWord_append {start rest : String} (h : ' ' ∈ start.toList) :
    firstWord (start ++ rest) = firstWord start := by
  obtain ⟨word, tail, hsplit, hword⟩ := List.eq_append_cons_of_mem h
  have hpos : ∀ c ∈ word, (c != ' ') = true := by
    intro c hc
    simpa using fun heq : c = ' ' => hword (heq ▸ hc)
  unfold firstWord
  rw [String.toList_append, hsplit, List.append_assoc, List.takeWhile_append_of_pos hpos,
    List.takeWhile_append_of_pos hpos]
  simp

/-- The first word of a question about the schema. -/
theorem CatalogQuery.firstWord_parts (q : CatalogQuery) :
    firstWord q.parts.1 = (Statement.catalog q).verb := by
  -- the equations of `parts` are too large to be stated, so its definition is opened instead
  delta CatalogQuery.parts
  cases q with
  | liteTables => decide +kernel
  | liteIndexes table | liteIndexColumns index | liteColumns table | liteForeignKeys table =>
    dsimp only [Statement.verb]
    rw [String.append_assoc, firstWord_append (by decide +kernel)]
    decide +kernel
  | postgresTables schema | postgresConstraints kind schema table | postgresForeignKeys schema table
  | postgresColumns schema table =>
    dsimp only [Statement.verb]
    simp only [String.append_assoc]
    rw [firstWord_append (by decide +kernel)]
    decide +kernel

/-- The first word of a statement is its verb. -/
theorem Statement.firstWord_text (b : Backend) (s : Statement) : firstWord (s.text b) = s.verb := by
  unfold Statement.text
  cases s with
  | select s =>
    simp only [Statement.pieces, Select.pieces, List.cons_append, Piece.render, String.append_assoc,
      Statement.verb]
    rw [firstWord_append (by decide +kernel)]
    decide +kernel
  | count table c =>
    simp only [Statement.pieces, Piece.render, String.append_assoc, Statement.verb]
    rw [firstWord_append (by decide +kernel)]
    decide +kernel
  | insert table row returning =>
    simp only [Statement.pieces, insertPieces, List.cons_append, Piece.render, String.append_assoc,
      Statement.verb]
    rw [firstWord_append (by decide +kernel)]
    decide +kernel
  | update table changes c =>
    simp only [Statement.pieces, updatePieces, List.cons_append, Piece.render, String.append_assoc,
      Statement.verb]
    rw [firstWord_append (by decide +kernel)]
    decide +kernel
  | delete table c =>
    simp only [Statement.pieces, Piece.render, String.append_assoc, Statement.verb]
    rw [firstWord_append (by decide +kernel)]
    decide +kernel
  | catalog q => simp [Statement.pieces, Piece.render, CatalogQuery.firstWord_parts]

/-- A text that begins like a statement that changes rows. -/
def isWriteText (text : String) : Bool :=
  [['I', 'N', 'S', 'E', 'R', 'T'], ['U', 'P', 'D', 'A', 'T', 'E'], ['D', 'E', 'L', 'E', 'T', 'E']].contains
    (firstWord text)

/-- The text of a statement begins like that exactly when the statement changes rows. -/
@[simp] theorem Statement.isWriteText_text (b : Backend) (s : Statement) : isWriteText (s.text b) = s.isWrite := by
  unfold isWriteText
  rw [Statement.firstWord_text]
  cases s with
  | catalog q => cases q <;> rfl
  | select s => rfl
  | count table c => rfl
  | insert table row returning => rfl
  | update table changes c => rfl
  | delete table c => rfl

end Sql

namespace Event

/-- A statement that changes rows was said. -/
def isWrite : Event → Bool
  | .query text _ => Sql.isWriteText text
  | .execute text _ => Sql.isWriteText text
  | .mark _ => false

/-- A mark was set. -/
def isMark : Event → Bool
  | .mark _ => true
  | _ => false

end Event

end RestTables
