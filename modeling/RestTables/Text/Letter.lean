/-
Module: RestTables.Text.Letter
Purpose: Letter case restricted to the 26 Latin letters of ASCII; every other character is left alone.
Main exports: lowerAscii, upperAscii, equalFold
-/

namespace RestTables.Text

/-- The small letter of an ASCII capital. -/
def lowerAscii (c : Char) : Char :=
  if 'A' ≤ c ∧ c ≤ 'Z' then Char.ofNat (c.toNat + 32) else c

/-- The capital of an ASCII small letter. -/
def upperAscii (c : Char) : Char :=
  if 'a' ≤ c ∧ c ≤ 'z' then Char.ofNat (c.toNat - 32) else c

/-- A text with its ASCII capitals made small. -/
def lowerText (s : String) : String := String.ofList (s.toList.map lowerAscii)

/-- A text with its ASCII small letters made capital. -/
def upperText (s : String) : String := String.ofList (s.toList.map upperAscii)

/-- Equal up to the case of ASCII letters. -/
def equalFold (a b : List Char) : Bool := a.map lowerAscii == b.map lowerAscii

/-- Texts equal up to the case of ASCII letters. -/
def sameFold (a b : String) : Bool := equalFold a.toList b.toList

theorem equalFold_refl (a : List Char) : equalFold a a = true := by simp [equalFold]

theorem equalFold_symm (a b : List Char) : equalFold a b = equalFold b a := by
  simp only [equalFold, Bool.beq_comm]

example : equalFold ['F', 'e', 'T'] ['f', 'E', 't'] = true := by decide
example : lowerAscii 'É' = 'É' := by decide

end RestTables.Text
