/-
Module: RestTables.Http.PathPattern
Purpose: Patterns of paths: text with named holes between braces. A hole stands for the rest of a segment, or,
  at the end of a pattern and with a star before its name, for the rest of the path. Braces written twice
  stand for themselves. A pattern of characters alone fits exactly the path that it spells.
Main exports: PathPattern, PathPattern.ofText, PathPattern.fit?, PathPattern.isMoreExact, fit?_chars
-/

namespace RestTables

/-- One piece of a pattern. -/
inductive PathPiece where
  | char (c : Char)
  /-- What is left of a segment, which may be nothing where a slash follows. -/
  | segment (name : String)
  /-- What is left of a path. -/
  | rest (name : String)
deriving Repr, DecidableEq

/-- A pattern is read from left to right. -/
abbrev PathPattern := List PathPiece

/-- The names of holes with the text that each stands for in a path, in the order of the path. -/
abbrev Captures := List (String × String)

namespace PathPattern

/-! ## Reading -/

/-- A character of a written pattern; braces that open and close a hole are told from those that stand
for themselves. -/
inductive Mark where
  | plain (c : Char)
  | opening
  | closing
deriving Repr, DecidableEq

/-- The characters of a written pattern, two equal braces being one that stands for itself. -/
def marks : List Char → List Mark
  | '\x7b' :: '\x7b' :: s => .plain '\x7b' :: marks s
  | '\x7d' :: '\x7d' :: s => .plain '\x7d' :: marks s
  | '\x7b' :: s => .opening :: marks s
  | '\x7d' :: s => .closing :: marks s
  | c :: s => .plain c :: marks s
  | [] => []

/-- The hole with a name. -/
def hole : List Char → PathPiece
  | '*' :: name => .rest (String.ofList name)
  | name => .segment (String.ofList name)

/-- The pieces of a pattern, given the name of the hole that is open, in reverse. -/
def ofMarks : (name : Option (List Char)) → List Mark → PathPattern
  | _, [] => []
  | none, .plain c :: s => .char c :: ofMarks none s
  | none, .opening :: s => ofMarks (some []) s
  | none, .closing :: s => ofMarks none s
  | some name, .plain c :: s => ofMarks (some (c :: name)) s
  | some name, .opening :: s => ofMarks (some ('\x7b' :: name)) s
  | some name, .closing :: s => hole name.reverse :: ofMarks none s

/-- The pattern that a text writes. -/
def ofText (s : String) : PathPattern := ofMarks none (marks s.toList)

/-! ## Fitting -/

/-- What the holes of a pattern stand for in a path that it fits. At the end of a path there is nothing for
a hole to stand for. -/
def fit? : PathPattern → List Char → Option Captures
  | [], s => if s.isEmpty then some [] else none
  | .char _ :: _, [] => none
  | .char c :: ps, d :: s => if c = d then fit? ps s else none
  | .segment name :: ps, s =>
    if s.isEmpty then none
    else (fit? ps (s.dropWhile (· != '/'))).map ((name, String.ofList (s.takeWhile (· != '/'))) :: ·)
  | .rest name :: ps, s =>
    if s.isEmpty then none else (fit? ps []).map ((name, String.ofList s) :: ·)

/-- Of two patterns that fit one path, the more exact one has a character where the other first has a
hole. -/
def isMoreExact : PathPattern → PathPattern → Bool
  | .char _ :: ps, .char _ :: qs => isMoreExact ps qs
  | .char _ :: _, _ => true
  | _ :: _, .char _ :: _ => false
  | _ :: ps, _ :: qs => isMoreExact ps qs
  | [], _ => false
  | _, [] => false

/-- No pattern is more exact than itself. -/
@[simp] theorem isMoreExact_self (p : PathPattern) : isMoreExact p p = false := by
  induction p with
  | nil => rfl
  | cons piece ps ih => cases piece <;> simpa [isMoreExact] using ih

/-- The text before the first hole fits by itself. -/
@[simp] theorem fit?_chars_append (s : List Char) (ps : PathPattern) (t : List Char) :
    fit? (s.map .char ++ ps) (s ++ t) = fit? ps t := by
  induction s with
  | nil => rfl
  | cons c s ih => simpa [fit?] using ih

/-- A pattern without holes fits the path that it spells and no other. -/
theorem fit?_chars (s t : List Char) : fit? (s.map .char) t = if t = s then some [] else none := by
  induction s generalizing t with
  | nil => cases t <;> simp [fit?]
  | cons c s ih =>
    cases t with
    | nil => simp [fit?]
    | cons d t =>
      by_cases h : c = d
      · subst h
        simp [fit?, ih]
      · simp [fit?, h, Ne.symm h]

/-- The captures of a pattern in a path, for examples. -/
def captures (pattern path : String) : Option Captures := fit? (ofText pattern) path.toList

example : captures "/v\x7bn\x7d/\x7bid\x7d" "/v1/a" = some [("n", "1"), ("id", "a")] := by decide +kernel
example : captures "/v\x7bn\x7d/x" "/v/x" = some [("n", "")] := by decide +kernel
example : captures "/\x7bid\x7d" "/" = none ∧ captures "/\x7bid\x7d" "/a/" = none := by decide +kernel
example : captures "/i/\x7b*all\x7d" "/i/a/b" = some [("all", "a/b")] := by decide +kernel
example : captures "/\x7b\x7bi\x7d\x7d" "/\x7bi\x7d" = some [] := by decide +kernel
example : isMoreExact (ofText "/a/\x7bx\x7d") (ofText "/\x7bx\x7d/b") = true := by decide +kernel

end PathPattern

end RestTables
