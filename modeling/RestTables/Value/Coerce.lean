import RestTables.Value.Basic
import RestTables.Json.Document

/-
Module: RestTables.Value.Coerce
Purpose: Making values of a column's kind from what clients send, text in query strings or JSON in bodies.
  What does not fit the kind is no value at all, so that it is reported before it reaches a statement.
Main exports: Value.ofText?, Value.ofJson?
-/

namespace RestTables.Value

/-- The words for true and false. -/
def boolOfText? (s : String) : Option Bool :=
  let word := Text.lowerText s
  if ["true", "t", "1", "yes"].contains word then some true
  else if ["false", "f", "0", "no"].contains word then some false
  else none

/-- The JSON value that a text writes; a text that is not JSON stands for itself. -/
def jsonOfText (s : String) : Json := (Json.parse? (Text.Utf8.encode s.toList)).getD (.str s)

/-- The value of a kind that a text writes. -/
def ofText? (kind : Kind) (s : String) : Option Value :=
  match kind with
  | .integer => (Number.readInt? 64 s.toList).map fun n => .bigInt (some (Int64.ofInt n))
  | .float => (Number.readFloat? s.toList).map fun x => .double (some x)
  | .decimal => (Decimal.ofText? s.toList).map fun d => .decimal (some d)
  | .boolean => (boolOfText? s).map fun b => .bool (some b)
  | .string => some (.string (some s))
  | .date => (Date.read? s.toList).map fun d => .date (some d)
  | .time => (Time.read? s.toList).map fun t => .time (some t)
  | .datetime => (DateTime.read? s.toList).map fun t => .datetime (some t)
  | .datetimeTz => (DateTime.readUtc? s.toList).map fun t => .instant (some t)
  | .uuid => (Uuid.read? s.toList).map fun u => .uuid (some u)
  | .json => some (.json (some (jsonOfText s)))
  | .binary => (Text.Hex.decode? s.toList).map fun b => .bytes (some b)

/-- A number as a value of a kind: whole numbers are integers, zero and one also truth values, and
decimals and strings take the number as it is written. -/
def ofNumber? (kind : Kind) (n : Json.Number) : Option Value :=
  match kind with
  | .integer => n.int64?.map fun i => .bigInt (some i)
  | .float => some (.double (some n.toBinary64))
  | .decimal => (Decimal.ofText? n.text.toList).map fun d => .decimal (some d)
  | .boolean =>
    match n with
    | .int 0 => some (.bool (some false))
    | .int 1 => some (.bool (some true))
    | _ => none
  | .string => some (.string (some n.text))
  | _ => none

/-- The value of a kind for a JSON value. Null becomes the NULL of the kind, and strings are read as
text; a JSON column takes any other value as it is. -/
def ofJson? (kind : Kind) (v : Json) : Option Value :=
  match v, kind with
  | .null, _ => some (null kind)
  | v, .json => some (.json (some v))
  | .bool b, .boolean => some (.bool (some b))
  | .bool b, .string => some (.string (some (toString b)))
  | .num n, kind => ofNumber? kind n
  | .str s, kind => ofText? kind s
  | _, _ => none

example : ofText? .integer "4.2" = none ∧ ofText? .integer "+42" = some (.bigInt (some 42)) := by decide +kernel
example : ofText? .boolean "TRUE" = some (.bool (some true)) := by decide +kernel
example : (ofText? .datetime "2008-01-01").map (·.keyText) = some (some "2008-01-01T00:00:00") := by
  decide +kernel
example : ofJson? .integer .null = some (.bigInt none) := by decide
example : ofJson? .json (.arr []) = some (.json (some (.arr []))) := by decide +kernel

end RestTables.Value
