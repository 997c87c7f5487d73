import RestTables.Value.Kind
import RestTables.Number.Decimal
import RestTables.Calendar.Instant
import RestTables.Uuid
import RestTables.Json.Printer

/-
Module: RestTables.Value.Basic
Purpose: Values that are bound to statements and read from rows. Every value has a type, and every type
  has its own NULL.
Main exports: Value, Value.null, Value.toJson, Value.keyText
-/

namespace RestTables

/-- A typed database value; `none` is the NULL of the type. -/
inductive Value where
  | bool (v : Option Bool)
  | tinyInt (v : Option Int8)
  | smallInt (v : Option Int16)
  | int (v : Option Int32)
  | bigInt (v : Option Int64)
  | tinyUnsigned (v : Option UInt8)
  | smallUnsigned (v : Option UInt16)
  | unsigned (v : Option UInt32)
  | bigUnsigned (v : Option UInt64)
  /-- A number of single precision, held as a double. -/
  | float (v : Option Binary64)
  | double (v : Option Binary64)
  | string (v : Option String)
  | char (v : Option Char)
  | bytes (v : Option (List UInt8))
  | json (v : Option Json)
  | date (v : Option Date)
  | time (v : Option Time)
  | datetime (v : Option DateTime)
  /-- An instant, in universal time. -/
  | instant (v : Option DateTime)
  /-- A local date and time, and its offset in minutes. -/
  | zoned (v : Option (DateTime × Int))
  | uuid (v : Option Uuid)
  | decimal (v : Option Decimal)
deriving Repr, DecidableEq

namespace Value

/-- The NULL of a column's kind. -/
def null : Kind → Value
  | .integer => .bigInt none
  | .float => .double none
  | .decimal => .decimal none
  | .boolean => .bool none
  | .string => .string none
  | .date => .date none
  | .time => .time none
  | .datetime => .datetime none
  | .datetimeTz => .instant none
  | .uuid => .uuid none
  | .json => .json none
  | .binary => .bytes none

instance : Inhabited Value := ⟨.bigInt none⟩

/-- The value has the type that belongs to a kind. -/
def hasKind : Kind → Value → Bool
  | .integer, .bigInt _ => true
  | .float, .double _ => true
  | .decimal, .decimal _ => true
  | .boolean, .bool _ => true
  | .string, .string _ => true
  | .date, .date _ => true
  | .time, .time _ => true
  | .datetime, .datetime _ => true
  | .datetimeTz, .instant _ => true
  | .uuid, .uuid _ => true
  | .json, .json _ => true
  | .binary, .bytes _ => true
  | _, _ => false

@[simp] theorem hasKind_null (k : Kind) : (null k).hasKind k = true := by cases k <;> rfl

/-- The value as it is shown. Decimals become doubles, bytes hexadecimal digits, and dates and times
the texts they are read from. -/
def toJson : Value → Json
  | .bool v => Json.ofOption .bool v
  | .tinyInt v => Json.ofOption (fun n => Json.int n.toInt) v
  | .smallInt v => Json.ofOption (fun n => Json.int n.toInt) v
  | .int v => Json.ofOption (fun n => Json.int n.toInt) v
  | .bigInt v => Json.ofOption (fun n => Json.int n.toInt) v
  | .tinyUnsigned v => Json.ofOption (fun n => Json.nat n.toNat) v
  | .smallUnsigned v => Json.ofOption (fun n => Json.nat n.toNat) v
  | .unsigned v => Json.ofOption (fun n => Json.nat n.toNat) v
  | .bigUnsigned v => Json.ofOption (fun n => Json.nat n.toNat) v
  | .float v => Json.ofOption Json.float v
  | .double v => Json.ofOption Json.float v
  | .string v => Json.ofOption .str v
  | .char v => Json.ofOption (fun c => .str (String.singleton c)) v
  | .bytes v => Json.ofOption (fun b => .str (String.ofList (Text.Hex.encode b))) v
  | .json v => v.getD .null
  | .date v => Json.ofOption (fun d => .str d.text) v
  | .time v => Json.ofOption (fun t => .str t.text) v
  | .datetime v => Json.ofOption (fun t => .str t.text) v
  | .instant v => Json.ofOption (fun t => .str t.textUtc) v
  | .zoned v => Json.ofOption (fun (t, offset) => .str (t.textWithOffset offset)) v
  | .uuid v => Json.ofOption (fun u => .str u.text) v
  | .decimal v => Json.ofOption (fun d => Json.float d.toBinary64) v

/-- The value shows as null: a NULL, a JSON null, or a double without JSON form. -/
def isNull (v : Value) : Bool := v.toJson.isNull

/-- The plain text of a key: a string without quotes, any other value as it is shown; none for null. -/
def keyText (v : Value) : Option String :=
  match v.toJson with
  | .null => none
  | .str s => some s
  | shown => some shown.text

@[simp] theorem isNull_null (k : Kind) : (null k).isNull = true := by cases k <;> rfl

end Value

end RestTables
