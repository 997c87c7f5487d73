import RestTables.Text.Hex
import RestTables.Text.Affix
import RestTables.Text.Letter

/-
Module: RestTables.Uuid
Purpose: Universally unique identifiers: sixteen bytes, written as hexadecimal digits in groups.
Main exports: Uuid, Uuid.ofBytes?, Uuid.read?, Uuid.text
-/

namespace RestTables

/-- Sixteen bytes. -/
structure Uuid where
  bytes : List UInt8
  size : bytes.length = 16
deriving Repr, DecidableEq

namespace Uuid

open Text

instance : Inhabited Uuid := ⟨⟨List.replicate 16 0, by decide⟩⟩

/-- The identifier with these bytes, if there are sixteen. -/
def ofBytes? (bytes : List UInt8) : Option Uuid :=
  if h : bytes.length = 16 then some ⟨bytes, h⟩ else none

@[simp] theorem ofBytes?_bytes (u : Uuid) : ofBytes? u.bytes = some u := dif_pos u.size

/-- The number of digits in each group. -/
def groups : List Nat := [8, 4, 4, 4, 12]

/-- Digits in groups joined by hyphens. -/
def grouped : List Nat → List Char → List Char
  | [], _ => []
  | [n], s => s.take n
  | n :: ns, s => s.take n ++ '-' :: grouped ns (s.drop n)

/-- The digits of groups joined by hyphens. -/
def ungrouped? : List Nat → List Char → Option (List Char)
  | [], s => if s.isEmpty then some [] else none
  | [n], s => if s.length = n then some s else none
  | n :: ns, s =>
    match s.drop n with
    | '-' :: rest => (ungrouped? ns rest).map (s.take n ++ ·)
    | _ => none

/-- Lower-case digits in groups. -/
def text (u : Uuid) : String := String.ofList (grouped groups (Hex.encode u.bytes))

/-- Digits alone, or in groups. -/
def readDigits? (s : List Char) : Option Uuid := do
  let digits ← if s.length = 32 then some s else ungrouped? groups s
  ofBytes? (← Hex.decode? digits)

/-- Digits in groups. -/
def readGroups? (s : List Char) : Option Uuid := do ofBytes? (← Hex.decode? (← ungrouped? groups s))

/-- An identifier written as digits alone, in groups, in groups between braces, or in groups after the
name of the scheme, in any case. -/
def read? (s : List Char) : Option Uuid :=
  match s.length with
  | 38 => ((Text.after? ['{'] s).bind (Text.before? ['}'])).bind readGroups?
  | 45 => if (s.take 9).map Text.lowerAscii = "urn:uuid:".toList then readGroups? (s.drop 9) else none
  | _ => readDigits? s

example : (read? "{67E55044-10B1-426F-9247-BB680E5FE0C8}".toList).map text =
    some "67e55044-10b1-426f-9247-bb680e5fe0c8" := by decide +kernel
example : read? "67e55044-10b1-426f-9247bb680e5fe0c8".toList = none := by decide +kernel

end Uuid

end RestTables
