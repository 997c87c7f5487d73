import RestTables.Digest.Sha256
import RestTables.Json.Printer
import RestTables.Text.Affix
import RestTables.Text.Blank
import RestTables.Text.Split

/-
Module: RestTables.Http.EntityTag
Purpose: Entity tags: the hash of a body, and the lists of tags with which requests are made conditional.
Main exports: EntityTag.of, EntityTag.Entry, EntityTag.entries, EntityTag.matchesWeak, EntityTag.matchesStrong
-/

namespace RestTables.EntityTag

open Text

/-- The tag of a body: the hash of its text between quotes. -/
def of (body : Json) : String := "\"" ++ String.ofList (Hex.encode (Sha256.hash body.bytes)) ++ "\""

/-- What a tag holds between its quotes. -/
def opaqueOf (tag : List Char) : List Char := trimOf '"' tag

/-- One entry of a list of tags. -/
inductive Entry where
  /-- Any tag at all. -/
  | any
  | tag (weak : Bool) (opaque_ : List Char)
deriving Repr, DecidableEq

/-- The entry that a text writes. -/
def Entry.read (s : List Char) : Entry :=
  let s := trim s
  if s = ['*'] then .any
  else match after? ['W', '/'] s with
    | some rest => .tag true (opaqueOf rest)
    | none => .tag false (opaqueOf s)

/-- The entries of a list. -/
def entries (header : String) : List Entry := (split [','] header.toList).map Entry.read

/-- An entry matches a tag; a weak one only where that is enough. -/
def Entry.matches (weakSuffices : Bool) (current : List Char) : Entry → Bool
  | .any => true
  | .tag weak opaque_ => (weakSuffices || !weak) && opaque_ == current

/-- One of the entries matches, weak ones too. -/
def matchesWeak (header current : String) : Bool :=
  (entries header).any (Entry.matches true (opaqueOf current.toList))

/-- One of the entries matches that are not weak. -/
def matchesStrong (header current : String) : Bool :=
  (entries header).any (Entry.matches false (opaqueOf current.toList))

/-- What matches strictly matches weakly too. -/
theorem matchesWeak_of_matchesStrong {header current : String} (h : matchesStrong header current = true) :
    matchesWeak header current = true := by
  unfold matchesStrong at h
  unfold matchesWeak
  rw [List.any_eq_true] at h ⊢
  obtain ⟨e, he, hm⟩ := h
  refine ⟨e, he, ?_⟩
  cases e with
  | any => rfl
  | tag weak t => simp_all [Entry.matches]

example : matchesStrong "\"a\", W/\"b\"" "\"b\"" = false := by decide +kernel
example : matchesWeak "\"a\", W/\"b\"" "\"b\"" = true := by decide +kernel

end RestTables.EntityTag
