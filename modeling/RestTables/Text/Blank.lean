/-
Module: RestTables.Text.Blank
Purpose: Blank characters and trimming. A character is blank when it has the Unicode property
  White_Space; trimming removes blanks at the ends of a text and nothing else.
Main exports: isBlank, trimStart, trimEnd, trim
-/

namespace RestTables.Text

/-- The characters with the property White_Space. -/
def isBlank (c : Char) : Bool :=
  let n := c.toNat
  (9 ≤ n && n ≤ 13) || n == 0x20 || n == 0x85 || n == 0xA0 || n == 0x1680 ||
    (0x2000 ≤ n && n ≤ 0x200A) || n == 0x2028 || n == 0x2029 || n == 0x202F || n == 0x205F ||
    n == 0x3000

/-- Every character that core calls white space is blank; the property has more members. -/
theorem isBlank_of_isWhitespace {c : Char} (h : c.isWhitespace = true) : isBlank c = true := by
  simp only [Char.isWhitespace, Bool.or_eq_true, decide_eq_true_eq] at h
  rcases h with ((h | h) | h) | h <;> subst h <;> decide

/-- Without its leading blanks. -/
def trimStart (s : List Char) : List Char := s.dropWhile isBlank

/-- Without its trailing blanks. -/
def trimEnd (s : List Char) : List Char := (s.reverse.dropWhile isBlank).reverse

/-- Without the blanks at either end. -/
def trim (s : List Char) : List Char := trimEnd (trimStart s)

/-- Without the copies of one character at the front. -/
def trimStartOf (c : Char) (s : List Char) : List Char := s.dropWhile (· == c)

/-- Without the copies of one character at the end. -/
def trimEndOf (c : Char) (s : List Char) : List Char := (s.reverse.dropWhile (· == c)).reverse

/-- Without the copies of one character at either end. -/
def trimOf (c : Char) (s : List Char) : List Char := trimEndOf c (trimStartOf c s)

end RestTables.Text
