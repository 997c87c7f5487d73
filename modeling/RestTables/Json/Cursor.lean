import RestTables.Json.Error

/-
Module: RestTables.Json.Cursor
Purpose: Reading a JSON text byte by byte. A reader leaves the cursor where it stopped, also when it fails,
  so that what encloses it can say where that was.
Main exports: Cursor, Reader, Reader.next, Reader.peek, Reader.fail, Reader.failAhead, Reader.blanks
-/

namespace RestTables.Json

/-- The bytes still to read, and how far the reader has come. -/
structure Cursor where
  rest : List UInt8
  line : Nat
  column : Nat
  /-- How many bytes are still to read. -/
  left : Nat
  left_eq : left = rest.length
deriving Repr, DecidableEq

namespace Cursor

/-- The start of a text. -/
def start (text : List UInt8) : Cursor := ⟨text, 1, 0, text.length, rfl⟩

/-- One byte on. -/
def advance (c : Cursor) : Cursor :=
  match h : c.rest with
  | [] => c
  | b :: rest =>
    have left_eq : c.left - 1 = rest.length := by simp [c.left_eq, h]
    if b = 10 then ⟨rest, c.line + 1, 0, c.left - 1, left_eq⟩
    else ⟨rest, c.line, c.column + 1, c.left - 1, left_eq⟩

/-- Some bytes on. -/
def advanceBy : (count : Nat) → Cursor → Cursor
  | 0, c => c
  | n + 1, c => advanceBy n c.advance

/-- Where the cursor stands. -/
def position (c : Cursor) : Position := ⟨c.line, c.column⟩

/-- One byte less is still to be read. -/
@[simp] theorem rest_advance (c : Cursor) : c.advance.rest = c.rest.tail := by
  unfold advance
  split
  · next h => simp [h]
  · next h => dsimp only; split <;> simp [h]

end Cursor

/-- A reader of a text. -/
abbrev Reader := ExceptT Failure (StateM Cursor)

namespace Reader

/-- Runs a reader from a cursor. -/
def runFrom (r : Reader α) (c : Cursor) : Except Failure α × Cursor := (ExceptT.run r).run c

/-- The next byte, without reading it. -/
def peek : Reader (Option UInt8) := do return (← get).rest.head?

/-- Reads a byte. -/
def skip : Reader Unit := modify Cursor.advance

/-- Reads the next byte, if there is one. -/
def next : Reader (Option UInt8) := do
  let b ← peek
  skip
  return b

/-- How many bytes are left. -/
def remaining : Reader Nat := do return (← get).left

/-- Fails at the last byte read. -/
def fail (cause : Cause) : Reader α := do throw ⟨cause, some (← get).position⟩

/-- Fails at the next byte. -/
def failAhead (cause : Cause) : Reader α := do throw ⟨cause, some (← get).advance.position⟩

/-- Fails at a place that only what encloses the reader knows. -/
def failSomewhere (cause : Cause) : Reader α := throw ⟨cause, none⟩

/-- A failure without a place gets the place where the cursor stopped. -/
def placed (r : Reader α) : Reader α := do
  try r catch f => throw { f with position := f.position.getD (← get).position }

/-- Space, tab and the ends of lines. -/
def isBlank (b : UInt8) : Bool := b == 32 || b == 10 || b == 9 || b == 13

/-- Passes over blanks; then the next byte, without reading it. -/
def blanks : Reader (Option UInt8) := do
  modify fun c => c.advanceBy (c.rest.takeWhile isBlank).length
  peek

/-- Reads a byte that is a digit. -/
def isDigit (b : UInt8) : Bool := 48 ≤ b && b ≤ 57

/-- The value of a digit. -/
def digitValue (b : UInt8) : Nat := b.toNat - 48

/-- Reads all digits that follow. -/
def digits : Reader (List UInt8) := do
  let ds := (← get).rest.takeWhile isDigit
  modify (Cursor.advanceBy ds.length)
  return ds

/-- Reads the bytes of a literal. -/
def literal : List UInt8 → Reader Unit
  | [] => pure ()
  | b :: bs => do
    match ← next with
    | none => fail .endInValue
    | some c => if c = b then literal bs else fail .expectedLiteral

end Reader

end RestTables.Json
