import RestTables.Json.Reader

/-
Module: RestTables.Json.Document
Purpose: Reading whole values and whole texts. The last of equal keys wins, values nest to a bounded depth,
  and an object that begins with a reserved key stands for the value that a string in it writes.
Main exports: Reader.value, Reader.plainValue, Reader.document, Json.parse, Json.parse?
-/

namespace RestTables.Json

namespace Reader

/-- Lists and objects may nest so deep. -/
def depthLimit : Nat := 127

/-- A whole text holds one value and blanks. -/
def document (r : Reader α) (text : List UInt8) : Except Failure α :=
  (r >>= fun a => do
    match ← blanks with
    | none => return a
    | some _ => failAhead .trailingCharacters).runFrom (Cursor.start text) |>.1

/-! ## Values as they are written -/

/-- A value that may nest `depth` deep. -/
def plainValue : (depth : Nat) → Reader Json
  | 0 => valueWith (failAhead .recursionLimit) (failAhead .recursionLimit)
  | depth + 1 =>
    valueWith (do return .arr (← listOf (plainValue depth)))
      (do return .obj (Object.ofMembers (← objectOf (plainValue depth))))

/-! ## Values that may be embedded as text -/

/-- An object that begins with this key holds no members: the string behind the key is the text of the
value that the object stands for. -/
def embeddingKey : String := "$serde_json::private::RawValue"

/-- What stands between the brackets of an object, given a reader for embedded texts and one for values. -/
def objectInside (embedded : List UInt8 → Except Failure Json) (item : Reader Json) : Reader Json := do
  if ← hasKey true then
    let key ← string
    colon
    if key = embeddingKey then
      let inner ← text "raw value"
      ExceptT.mk (pure (embedded (Text.Utf8.encode inner.toList)))
    else
      let first ← item
      let others ← membersOf item ((← remaining) + 1) false
      return .obj (Object.ofMembers ((key, first) :: others))
  else return .obj []

/-- A value that may nest `depth` deep, given a reader for embedded texts. -/
def valueWithin (embedded : List UInt8 → Except Failure Json) : (depth : Nat) → Reader Json
  | 0 => valueWith (failAhead .recursionLimit) (failAhead .recursionLimit)
  | depth + 1 =>
    let item := valueWithin embedded depth
    valueWith (do return .arr (← listOf item)) (enclosed (objectInside embedded item) objectEnd)

/-- The value that an embedded text holds. Texts are embedded in each other up to `levels` deep; each is
shorter than the text around it. -/
def embeddedValue : (levels : Nat) → List UInt8 → Except Failure Json
  | 0, _ => .error ⟨.recursionLimit, none⟩
  | levels + 1, text => document (valueWithin (fun inner => embeddedValue levels inner) depthLimit) text

/-- A value that may nest `depth` deep, with the values that it embeds in their places. -/
def value (depth : Nat) : Reader Json := do valueWithin (embeddedValue (← remaining)) depth

end Reader

/-- The value that a text holds. -/
def parse (text : List UInt8) : Except Failure Json := Reader.document (Reader.value Reader.depthLimit) text

/-- The value that a text holds, if it is JSON. -/
def parse? (text : List UInt8) : Option Json := (parse text).toOption

/-- The outcome of reading bytes, for examples. -/
def outcomeOf (text : List UInt8) : String :=
  match parse text with
  | .ok v => v.text
  | .error f => f.message

/-- The outcome of reading a text, for examples. -/
def outcome (s : String) : String := outcomeOf (Text.Utf8.encode s.toList)

example : outcome " [1, -2 ,1.5e1]" = "[1,-2,15.0]" := by decide +kernel
example : outcome "[1,]" = "trailing comma at line 1 column 4" := by decide +kernel
example : outcome "\x7b\"b\":1,\"a\":null,\"b\":\"\\u00e9\"\x7d" = "\x7b\"a\":null,\"b\":\"\u00e9\"\x7d" := by
  decide +kernel
example : outcome "\n1e999" = "number out of range at line 2 column 5" := by decide +kernel
example : outcome "-0" = "-0.0" ∧ outcome "01" = "invalid number at line 1 column 2" := by decide +kernel
example : outcomeOf [34, 92, 110, 0xC3, 0xA9, 0xFF, 34] = "invalid unicode code point at line 1 column 6" := by
  decide +kernel
example : outcomeOf [34, 0xFF, 92, 110, 34] = "invalid unicode code point at line 1 column 3" := by decide +kernel
example : outcome "\"\\ud800\"" = "unexpected end of hex escape at line 1 column 8" := by decide +kernel

/-- An object that embeds a text, for examples. -/
def embedding (inner : String) : String :=
  "\x7b\"" ++ Reader.embeddingKey ++ "\":" ++ (Json.str inner).text ++ "\x7d"

example : outcome (embedding " [1 ,2]") = "[1,2]" := by decide +kernel
example : outcome (embedding (embedding "5")) = "5" := by decide +kernel
example : outcome (embedding "nope") = "expected ident at line 1 column 2" := by decide +kernel

end RestTables.Json
