import RestTables.Text.Letter

/-
Module: RestTables.Http.Target
Purpose: The targets of requests: a path with an optional query, alone or behind a scheme and an authority.
Main exports: Target, Target.read
-/

namespace RestTables

/-- The path of a request as it is written, and what stands behind its question mark. -/
structure Target where
  path : String
  query : Option String
deriving Repr, DecidableEq, Inhabited

namespace Target

/-- What is wrong with a target. -/
inductive Problem where
  | tooLong
  | empty
  | invalidCharacter
  | invalidAuthority
  | invalidFormat
  | schemeTooLong
deriving Repr, DecidableEq

/-- The problem in words. -/
def Problem.message : Problem → String
  | tooLong => "uri too long"
  | empty => "empty string"
  | invalidCharacter => "invalid uri character"
  | invalidAuthority => "invalid authority"
  | invalidFormat => "invalid format"
  | schemeTooLong => "scheme too long"

/-- A character of a path. -/
def isPathChar (c : Char) : Bool :=
  let n := c.toNat
  n = 0x21 || (0x24 ≤ n && n ≤ 0x3B) || n = 0x3D || (0x40 ≤ n && n ≤ 0x5F) || (0x61 ≤ n && n ≤ 0x7A) ||
    n = 0x7C || n = 0x7E || 0x80 ≤ n || "\"\x7b\x7d".toList.contains c

/-- A character of a query. -/
def isQueryChar (c : Char) : Bool :=
  let n := c.toNat
  n = 0x21 || (0x24 ≤ n && n ≤ 0x3B) || n = 0x3D || (0x3F ≤ n && n ≤ 0x7E) || 0x80 ≤ n

/-- A path, its query, and nothing of what follows a hash. -/
def readPath (s : List Char) : Except Problem Target :=
  let path := s.takeWhile fun c => c != '?' && c != '#'
  let rest := s.drop path.length
  if !path.all isPathChar then .error .invalidCharacter
  else match rest with
    | '?' :: rest =>
      let query := rest.takeWhile (· != '#')
      if query.all isQueryChar then .ok ⟨String.ofList path, some (String.ofList query)⟩
      else .error .invalidCharacter
    | _ => .ok ⟨String.ofList path, none⟩

/-- A character of an authority. -/
def isAuthorityChar (c : Char) : Bool :=
  (c.toNat < 128 && c.isAlphanum) || "!$&'()*+,-.:;=@[]_~%".toList.contains c

/-- What has been seen of an authority. -/
structure AuthorityScan where
  colons : Nat := 0
  opened : Bool := false
  closed : Bool := false
  percent : Bool := false
  endsInAt : Bool := false

/-- One character of an authority. A user's name in front of an at sign may hold what a host may not. -/
def AuthorityScan.step (a : AuthorityScan) (c : Char) : Except Problem AuthorityScan :=
  let a := { a with endsInAt := c = '@' }
  if !isAuthorityChar c then .error .invalidCharacter
  else match c with
    | ':' => if a.colons ≥ 8 then .error .invalidAuthority else .ok { a with colons := a.colons + 1 }
    | '[' => if a.percent || a.opened then .error .invalidAuthority else .ok { a with opened := true }
    | ']' =>
      if !a.opened || a.closed then .error .invalidAuthority
      else .ok { a with closed := true, colons := 0, percent := false }
    | '@' => .ok { a with colons := 0, percent := false }
    | '%' => .ok { a with percent := true }
    | _ => .ok a

/-- An authority and what follows it. -/
def readAuthority (s : List Char) : Except Problem (List Char × List Char) := do
  let authority := s.takeWhile fun c => c != '/' && c != '?' && c != '#'
  let a ← authority.foldlM AuthorityScan.step {}
  if a.opened != a.closed || a.colons > 1 || a.endsInAt || a.percent then .error .invalidAuthority
  else .ok (authority, s.drop authority.length)

/-- A character of a scheme. -/
def isSchemeChar (c : Char) : Bool := (c.toNat < 128 && c.isAlphanum) || "+-.~".toList.contains c

/-- A scheme and what follows its two slashes. -/
def scheme? (s : List Char) : Option (List Char × List Char) :=
  let scheme := s.takeWhile isSchemeChar
  match s.drop scheme.length with
  | ':' :: '/' :: '/' :: rest => if s.length > 3 then some (scheme, rest) else none
  | _ => none

/-- A target that does not begin with a slash. -/
def readFull (s : List Char) : Except Problem Target :=
  match scheme? s with
  | some (scheme, rest) =>
    if scheme.length > 64 then .error .schemeTooLong
    else if rest.isEmpty then .error .empty
    else do
      let (authority, rest) ← readAuthority rest
      if authority.isEmpty then .error .invalidFormat
      else
        let t ← readPath rest
        return { t with path := if t.path.isEmpty then "/" else t.path }
  | none => do
    let (_, rest) ← readAuthority s
    if rest.isEmpty then return ⟨"", none⟩ else .error .invalidFormat

/-- The most bytes that a target may have. -/
def maxLength : Nat := 65534

/-- The target that a text writes. -/
def read (s : String) : Except Problem Target :=
  if maxLength < s.utf8ByteSize then .error .tooLong
  else match s.toList with
    | [] => .error .empty
    | ['*'] => .ok ⟨"*", none⟩
    | '/' :: rest => readPath ('/' :: rest)
    | [c] => if c = '?' ∨ c = '#' then .error .invalidCharacter else readFull [c]
    | s => readFull s

example : (read "/a?b=c#d").toOption = some ⟨"/a", some "b=c"⟩ := by decide +kernel
example : (read "/a\x7f").toOption = none ∧ (read "/é?\x7f").toOption = none := by decide +kernel
example : (read "/a b").toOption = none := by decide +kernel
example : (read "http://host:80").toOption = some ⟨"/", none⟩ := by decide +kernel

end Target

end RestTables
