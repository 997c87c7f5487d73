import RestTables.Json.Printer
import RestTables.Text.Quoted
import RestTables.Text.Split

/-
Module: RestTables.Json.Error
Purpose: Why a JSON text could not be read, as JSON or as the data it should hold, and where.
Main exports: Json.Cause, Json.Failure, Cause.message, Failure.message
-/

namespace RestTables.Json

/-- A place in a text: the line, and how many bytes of it have been read. -/
structure Position where
  line : Nat
  column : Nat
deriving Repr, DecidableEq

/-- What stood where something else was expected. -/
inductive Found where
  | null
  | bool (b : Bool)
  | num (n : Number)
  | str (s : String)
  | sequence
  | map
deriving Repr, DecidableEq

/-- The kind of a value. -/
def Found.of : Json → Found
  | .null => .null
  | .bool b => .bool b
  | .num n => .num n
  | .str s => .str s
  | .arr _ => .sequence
  | .obj _ => .map

/-- What is wrong with a text. -/
inductive Cause where
  | endInList
  | endInObject
  | endInString
  | endInValue
  | expectedColon
  | expectedListCommaOrEnd
  | expectedObjectCommaOrEnd
  | expectedLiteral
  | expectedValue
  | invalidEscape
  | invalidNumber
  | numberOutOfRange
  | invalidCodePoint
  | controlCharacter
  | keyMustBeString
  | loneSurrogate
  | trailingComma
  | trailingCharacters
  | shortHexEscape
  | recursionLimit
  | wrongType (found : Found) (expected : String)
  | wrongValue (found : Found) (expected : String)
  | wrongLength (length : Nat) (expected : String)
  | unknownVariant (found : String) (variants : List String)
  | unknownField (found : String) (fields : List String)
  | missingField (field : String)
  | duplicateField (field : String)
  | noVariant (type : String)
  | neitherOneNorMany (one many : Cause)
deriving Repr

/-- A cause, and the place where it is known. -/
structure Failure where
  cause : Cause
  position : Option Position
deriving Repr

/-- What stood there, in words. -/
def Found.describe : Found → String
  | .null => "null"
  | .bool b => s!"boolean `{b}`"
  | .num (.int n) => s!"integer `{n}`"
  | .num (.float x) => "floating point `" ++ (Number.float x).text ++ "`"
  | .str s => "string " ++ Text.quoted s
  | .sequence => "sequence"
  | .map => "map"

/-- A choice between names. -/
def oneOf : List String → String
  | [] => "nothing"
  | [a] => s!"`{a}`"
  | [a, b] => s!"`{a}` or `{b}`"
  | names => "one of " ++ Text.join ", " (names.map fun n => s!"`{n}`")

/-- The cause in words. -/
def Cause.message : Cause → String
  | .endInList => "EOF while parsing a list"
  | .endInObject => "EOF while parsing an object"
  | .endInString => "EOF while parsing a string"
  | .endInValue => "EOF while parsing a value"
  | .expectedColon => "expected `:`"
  | .expectedListCommaOrEnd => "expected `,` or `]`"
  | .expectedObjectCommaOrEnd => "expected `,` or `\x7d`"
  | .expectedLiteral => "expected ident"
  | .expectedValue => "expected value"
  | .invalidEscape => "invalid escape"
  | .invalidNumber => "invalid number"
  | .numberOutOfRange => "number out of range"
  | .invalidCodePoint => "invalid unicode code point"
  | .controlCharacter => "control character (\\u0000-\\u001F) found while parsing a string"
  | .keyMustBeString => "key must be a string"
  | .loneSurrogate => "lone leading surrogate in hex escape"
  | .trailingComma => "trailing comma"
  | .trailingCharacters => "trailing characters"
  | .shortHexEscape => "unexpected end of hex escape"
  | .recursionLimit => "recursion limit exceeded"
  | .wrongType found expected => "invalid type: " ++ found.describe ++ ", expected " ++ expected
  | .wrongValue found expected => "invalid value: " ++ found.describe ++ ", expected " ++ expected
  | .wrongLength length expected => s!"invalid length {length}, expected {expected}"
  | .unknownVariant found variants => s!"unknown variant `{found}`, expected " ++ oneOf variants
  | .unknownField found fields => s!"unknown field `{found}`, expected " ++ oneOf fields
  | .missingField field => s!"missing field `{field}`"
  | .duplicateField field => s!"duplicate field `{field}`"
  | .noVariant type => "data did not match any variant of untagged enum " ++ type
  | .neitherOneNorMany one many =>
    "OneOrMany could not deserialize any variant:\n  One: " ++ one.message ++ "\n  Many: " ++ many.message

/-- The cause in words, and the place. -/
def Failure.message (f : Failure) : String :=
  match f.position with
  | none => f.cause.message
  | some p => f.cause.message ++ s!" at line {p.line} column {p.column}"

end RestTables.Json
