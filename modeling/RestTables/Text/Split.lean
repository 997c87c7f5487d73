/-
Module: RestTables.Text.Split
Purpose: Splitting a text at every occurrence of a separator, read from left to right without
  overlaps. An empty separator stands between any two characters and at both ends.
Main exports: split, splitAny, join
-/

namespace RestTables.Text

/-- Put `c` in front of the first piece. -/
def pushHead (c : Char) : List (List Char) → List (List Char)
  | [] => [[c]]
  | p :: ps => (c :: p) :: ps

/-- The pieces of a text between separators; `skip` counts the characters of a separator still to be
passed over. -/
def splitFrom (separator : List Char) : (skip : Nat) → List Char → List (List Char)
  | _, [] => [[]]
  | skip + 1, _ :: s => splitFrom separator skip s
  | 0, c :: s =>
    if separator.isPrefixOf (c :: s) then [] :: splitFrom separator (separator.length - 1) s
    else pushHead c (splitFrom separator 0 s)

/-- The pieces of a text between the occurrences of `separator`. -/
def split (separator s : List Char) : List (List Char) :=
  if separator.isEmpty then [] :: s.map ([·]) ++ [[]] else splitFrom separator 0 s

/-- The pieces of a text between the characters that `p` accepts. -/
def splitAny (p : Char → Bool) : List Char → List (List Char)
  | [] => [[]]
  | c :: s => if p c then [] :: splitAny p s else pushHead c (splitAny p s)

/-- The pieces with `separator` between any two of them. -/
def join (separator : String) : List String → String
  | [] => ""
  | [s] => s
  | s :: r => s ++ separator ++ join separator r

theorem splitFrom_ne_nil (separator : List Char) (n : Nat) (s : List Char) :
    splitFrom separator n s ≠ [] := by
  induction s generalizing n with
  | nil => simp [splitFrom]
  | cons c s ih =>
    cases n with
    | succ n => simpa [splitFrom] using ih n
    | zero =>
      simp only [splitFrom]
      split
      · simp
      · cases h : splitFrom separator 0 s with
        | nil => exact absurd h (ih 0)
        | cons p ps => simp [pushHead]

example : split [';'] ['a', ';', ';', 'b'] = [['a'], [], ['b']] := by decide
example : split ['-', '-'] ['a', '-', '-', '-', 'c'] = [['a'], ['-', 'c']] := by decide

end RestTables.Text
