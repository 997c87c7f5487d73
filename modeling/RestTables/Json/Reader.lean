import RestTables.Json.Skip

/-
Module: RestTables.Json.Reader
Purpose: Reading data of a given shape straight from JSON text, so that a wrong type is reported at the
  place where it stands. A record is an object, or the list of its fields in order.
Main exports: Reader.text, Reader.flag, Reader.natural, Reader.optional, Reader.list, Reader.map,
  Reader.choice, Reader.FieldReader, Reader.record
-/

namespace RestTables.Json.Reader

/-- What stands here: a scalar is read, a list or an object is not. -/
def found : Reader Found := do
  match ← peek with
  | some 91 => return .sequence
  | some 123 => return .map
  | _ => return Found.of (← valueWith (failAhead .expectedValue) (failAhead .expectedValue))

/-- Something else stands here than expected. -/
def wrongType (expected : String) : Reader α := do fail (.wrongType (← found) expected)

/-- The next byte that is no blank; there must be one. -/
def start : Reader UInt8 := do
  match ← blanks with
  | some b => return b
  | none => failAhead .endInValue

/-- A string. -/
def text (expected : String) : Reader String := do
  if (← start) = 34 then string else wrongType expected

/-- True or false. -/
def flag : Reader Bool := do
  match ← start with
  | 116 =>
    literal [116, 114, 117, 101]
    return true
  | 102 =>
    literal [102, 97, 108, 115, 101]
    return false
  | _ => wrongType "a boolean"

/-- A natural number of 64 bits. -/
def natural : Reader Nat := do
  let b ← start
  if b = 45 || isDigit b then
    match ← number with
    | .int n => if 0 ≤ n then return n.toNat else fail (.wrongValue (.num (.int n)) "u64")
    | .float x => fail (.wrongType (.num (.float x)) "u64")
  else wrongType "u64"

/-- A string of one character. -/
def character : Reader Char := do
  let s ← text "a character"
  match s.toList with
  | [c] => return c
  | _ => fail (.wrongValue (.str s) "a character")

/-- Null, or a value. -/
def optional (item : Reader α) : Reader (Option α) := do
  match ← blanks with
  | some 110 =>
    skip
    literal [117, 108, 108]
    return none
  | _ => return some (← item)

/-- A list. -/
def list (item : Reader α) : Reader (List α) := do
  if (← start) = 91 then placed (listOf item) else wrongType "a sequence"

/-- An object with keys of any kind. -/
def map (item : Reader α) : Reader (List (String × α)) := do
  if (← start) = 123 then placed (objectOf item) else wrongType "a map"

/-- The key that an object must begin with. -/
def firstKey : Reader Unit := do
  match ← blanks with
  | none => failAhead .endInObject
  | some b => if b = 34 then pure () else failAhead (if b = 125 then .expectedValue else .keyMustBeString)

/-- One of some names. The name may also be the only key of an object, with null as its value. -/
def choice (variants : List (String × α)) : Reader α := do
  let named (expected : String) : Reader α := do
    let name ← text expected
    match variants.lookup name with
    | some a => return a
    | none => fail (.unknownVariant name (variants.map (·.1)))
  match ← start with
  | 34 => named "variant identifier"
  | 123 =>
    skip
    firstKey
    let a ← named "variant identifier"
    colon
    if (← start) = 110 then
      skip
      literal [117, 108, 108]
    else wrongType "unit"
    match ← blanks with
    | none => fail .endInObject
    | some b => if b = 125 then skip else fail .expectedValue
    return a
  | _ => failAhead .expectedValue

/-! ## Records -/

/-- How one field of a record is read into what has been read of the record so far. -/
structure FieldReader (σ : Type) where
  name : String
  /-- Reads the field's value. -/
  read : σ → Reader σ
  /-- A list of fields may end before this one. -/
  mayLack : Bool

/-- A field whose value is put into the record by `set`. -/
def FieldReader.of (name : String) (item : Reader α) (set : α → σ → σ) (mayLack : Bool) : FieldReader σ :=
  ⟨name, fun s => do return set (← item) s, mayLack⟩

/-- How a record is read: its name, its fields in order, and whether other fields are errors. -/
structure RecordReader (σ : Type) where
  name : String
  fields : List (FieldReader σ)
  isClosed : Bool

namespace RecordReader

/-- The number of fields, in words. -/
def lengthText (r : RecordReader σ) : String :=
  r.name ++ s!" with {r.fields.length} element" ++ (if r.fields.length = 1 then "" else "s")

/-- The fields from a list, in order. -/
def fromItems (r : RecordReader σ) : (index : Nat) → List (FieldReader σ) → σ → Reader σ
  | _, [], partialRecord => return partialRecord
  | index, field :: fields, partialRecord => do
    if ← hasItem (index == 0) then
      fromItems r (index + 1) fields (← field.read partialRecord)
    else if field.mayLack then fromItems r (index + 1) fields partialRecord
    else failSomewhere (.wrongLength index r.lengthText)

/-- The fields from an object, given the names already read; `fuel` bounds its members. -/
def fromMembers (r : RecordReader σ) : (fuel : Nat) → (first : Bool) → (seen : List String) → σ → Reader σ
  | 0, _, _, _ => failAhead .endInObject
  | fuel + 1, first, seen, partialRecord => do
    if ← hasKey first then
      let key ← string
      match r.fields.find? (·.name == key) with
      | some field =>
        if seen.contains key then failSomewhere (.duplicateField key)
        else
          colon
          fromMembers r fuel false (key :: seen) (← field.read partialRecord)
      | none =>
        if r.isClosed then failSomewhere (.unknownField key (r.fields.map (·.name)))
        else
          colon
          skipValue
          fromMembers r fuel false seen partialRecord
    else return partialRecord

/-- A record, from what it is before anything is read to what it must be in the end. -/
def read (r : RecordReader σ) (empty : σ) (finish : σ → Except Cause α) : Reader α := do
  let finished (s : σ) : Reader α :=
    match finish s with
    | .ok a => return a
    | .error cause => failSomewhere cause
  match ← start with
  | 91 => placed (enclosed (do finished (← r.fromItems 0 r.fields empty)) listEnd)
  | 123 => placed (enclosed (do finished (← r.fromMembers ((← remaining) + 1) true [] empty)) objectEnd)
  | _ => wrongType r.name

end RecordReader

/-- A field that must be there. -/
def required (name : String) (field : Option α) : Except Cause α :=
  match field with
  | some a => .ok a
  | none => .error (.missingField name)

end RestTables.Json.Reader
