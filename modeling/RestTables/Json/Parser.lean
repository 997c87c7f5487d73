import RestTables.Json.Cursor
import RestTables.Text.Utf8

/-
Module: RestTables.Json.Parser
Purpose: Reading the parts of JSON values: strings, numbers, what separates items and members, and a value
  by its first byte. Whole numbers that fit 64 bits stay exact.
Main exports: Reader.string, Reader.number, Reader.listOf, Reader.objectOf, Reader.valueWith
-/

namespace RestTables.Json

namespace Reader

/-! ## Strings -/

/-- The number written by four hexadecimal digits. -/
def fourHexDigits : Reader Nat := do
  match (← get).rest with
  | a :: b :: c :: d :: _ =>
    modify (Cursor.advanceBy 4)
    match Text.Hex.number? ([a, b, c, d].map fun b => Char.ofNat b.toNat) with
    | some n => return n
    | none => fail .invalidEscape
  | rest =>
    modify (Cursor.advanceBy rest.length)
    fail .endInString

/-- Reads one byte that an escape of a second half of a pair must have. -/
def pairByte (b : UInt8) : Reader Unit := do
  match ← peek with
  | none => fail .endInString
  | some c =>
    skip
    if c = b then pure () else fail .shortHexEscape

/-- The first half of a pair of code units. -/
def isHighHalf (n : Nat) : Bool := 0xD800 ≤ n && n ≤ 0xDBFF

/-- The second half of a pair of code units. -/
def isLowHalf (n : Nat) : Bool := 0xDC00 ≤ n && n ≤ 0xDFFF

/-- The character that code units write, given behind a backslash and a `u`. -/
def codeUnits : Reader Char := do
  let n ← fourHexDigits
  if isLowHalf n then fail .loneSurrogate
  else if !isHighHalf n then return Char.ofNat n
  else
    pairByte 92
    pairByte 117
    let m ← fourHexDigits
    if isLowHalf m then return Char.ofNat ((n - 0xD800) * 1024 + (m - 0xDC00) + 0x10000)
    else fail .loneSurrogate

/-- The byte that a one-letter escape stands for. -/
def simpleEscape? (b : UInt8) : Option UInt8 :=
  match b with
  | 34 => some 34
  | 92 => some 92
  | 47 => some 47
  | 98 => some 8
  | 102 => some 12
  | 110 => some 10
  | 114 => some 13
  | 116 => some 9
  | _ => none

/-- The bytes of an escape, behind its backslash. -/
def escape : Reader (List UInt8) := do
  match ← next with
  | none => fail .endInString
  | some 117 => return Text.Utf8.encode [← codeUnits]
  | some b =>
    match simpleEscape? b with
    | some c => return [c]
    | none => fail .invalidEscape

/-- The bytes of a string up to its closing quote; `fuel` bounds them. -/
def stringBytes : (fuel : Nat) → (read : List UInt8) → Reader (List UInt8)
  | 0, _ => fail .endInString
  | fuel + 1, read => do
    match ← peek with
    | none => fail .endInString
    | some b =>
      skip
      if b = 34 then return read.reverse
      else if b = 92 then stringBytes fuel ((← escape).reverse ++ read)
      else if b < 32 then fail .controlCharacter
      else stringBytes fuel (b :: read)

/-- A string, from its opening quote. Bytes that encode no text are told by how many of the string's bytes
stand from the first of them to the closing quote, counted after the escapes have been replaced. -/
def string : Reader String := do
  skip
  let bytes ← stringBytes ((← remaining) + 1) []
  match Text.Utf8.decode? bytes with
  | some s => return String.ofList s
  | none =>
    let behind := (← get).position
    let broken := bytes.length - Text.Utf8.validLength bytes
    throw ⟨.invalidCodePoint, some { behind with column := behind.column - broken }⟩

/-! ## Numbers -/

/-- Whole numbers up to this bound are kept exact. -/
def exactBound : Nat := twoTo 64

/-- Digits worked into a number as long as it stays exact, and the digits left over. -/
def absorb : (n : Nat) → List UInt8 → Nat × List UInt8
  | n, [] => (n, [])
  | n, d :: ds => if n * 10 + digitValue d < exactBound then absorb (n * 10 + digitValue d) ds else (n, d :: ds)

/-- A double scaled by a negative power of ten, in steps that are powers in range themselves. -/
def scaleDown : (fuel : Nat) → Binary64 → (power : Nat) → Binary64
  | 0, x, _ => x
  | fuel + 1, x, power =>
    if power ≤ 308 then x.div (Binary64.ofInt (tenTo power))
    else if x.isZero then x
    else scaleDown fuel (x.div (Binary64.ofInt (tenTo 308))) (power - 308)

/-- The double for a number of 64 bits and a power of ten. The number is rounded first and then scaled,
so the result may differ in its last bit from the nearest double. -/
def scaled (negative : Bool) (significand : Nat) (power : Int) : Reader Number := do
  let x := Binary64.ofInt significand
  let signed := fun x : Binary64 => Number.float (if negative then x.neg else x)
  if power < 0 then return signed (scaleDown 4 x power.natAbs)
  else if power > 308 then (if x.isZero then return signed x else fail .numberOutOfRange)
  else
    let y := x.mul (Binary64.ofInt (tenTo power.toNat))
    if y.isFinite then return signed y else fail .numberOutOfRange

/-- The largest exponent that is looked at. -/
def exponentBound : Nat := twoTo 31

/-- The number that the digits of an exponent write; none when it is too large to matter, which is
an error where the number grows with it. -/
def exponentOf (grows : Bool) : (n : Nat) → List UInt8 → Reader (Option Nat)
  | n, [] => return some n
  | n, d :: ds => do
    skip
    if n * 10 + digitValue d < exponentBound then exponentOf grows (n * 10 + digitValue d) ds
    else if grows then fail .numberOutOfRange
    else
      modify (Cursor.advanceBy ds.length)
      return none

/-- The rest of a number from its exponent mark on. -/
def exponent (negative : Bool) (significand : Nat) (power : Int) : Reader Number := do
  skip
  let sign ← peek
  if sign = some 43 ∨ sign = some 45 then skip
  let down := sign = some 45
  let ds := (← get).rest.takeWhile isDigit
  if ds.isEmpty then
    match ← next with
    | none => fail .endInValue
    | some _ => fail .invalidNumber
  else
    match ← exponentOf (significand != 0 && !down) 0 ds with
    | some n => scaled negative significand (if down then power - n else power + n)
    | none => scaled negative 0 0

/-- An exponent may follow. -/
def fractionEnd (negative : Bool) (significand : Nat) (power : Int) : Reader Number := do
  let mark ← peek
  if mark = some 101 ∨ mark = some 69 then exponent negative significand power
  else scaled negative significand power

/-- The rest of a number from its point on. -/
def fraction (negative : Bool) (significand : Nat) (power : Int) : Reader Number := do
  skip
  let ds ← digits
  if ds.isEmpty then
    match ← peek with
    | none => failAhead .endInValue
    | some _ => failAhead .invalidNumber
  else
    let (n, left) := absorb significand ds
    fractionEnd negative n (power - (ds.length - left.length : Nat))

/-- A whole number below the bound: only the negative zero and what is below the signed range are
doubles. -/
def whole (negative : Bool) (n : Nat) : Number :=
  if !negative then .int n
  else if n = 0 ∨ n > twoTo 63 then .float (Binary64.ofInt n).neg
  else .int (-n)

/-- What follows the whole part of a number. -/
def numberEnd (negative : Bool) (n : Nat) (left : List UInt8) : Reader Number := do
  let mark ← peek
  if mark = some 46 then fraction negative n left.length
  else if mark = some 101 ∨ mark = some 69 then exponent negative n left.length
  else if left.isEmpty then return whole negative n
  else scaled negative n left.length

/-- A number, behind its sign. -/
def unsigned (negative : Bool) : Reader Number := do
  match ← peek with
  | none => fail .endInValue
  | some 48 =>
    skip
    match ← peek with
    | some b => if isDigit b then failAhead .invalidNumber else numberEnd negative 0 []
    | none => numberEnd negative 0 []
  | some b =>
    if isDigit b then
      let (n, left) := absorb 0 (← digits)
      numberEnd negative n left
    else
      skip
      fail .invalidNumber

/-- A number. -/
def number : Reader Number := do
  if (← peek) = some 45 then
    skip
    unsigned true
  else unsigned false

/-! ## Lists and objects -/

/-- Whether a list goes on; after its first item only behind a comma. -/
def hasItem (first : Bool) : Reader Bool := do
  match ← blanks with
  | none => failAhead .endInList
  | some b =>
    if b = 93 then return false
    else if first then return true
    else if b = 44 then
      skip
      match ← blanks with
      | none => failAhead .endInValue
      | some c => if c = 93 then failAhead .trailingComma else return true
    else failAhead .expectedListCommaOrEnd

/-- Whether an object goes on; after its first member only behind a comma. -/
def hasKey (first : Bool) : Reader Bool := do
  match ← blanks with
  | none => failAhead .endInObject
  | some b =>
    if b = 125 then return false
    else if first then (if b = 34 then return true else failAhead .keyMustBeString)
    else if b = 44 then
      skip
      match ← blanks with
      | none => failAhead .endInValue
      | some c =>
        if c = 34 then return true
        else if c = 125 then failAhead .trailingComma
        else failAhead .keyMustBeString
    else failAhead .expectedObjectCommaOrEnd

/-- The colon between a key and its value. -/
def colon : Reader Unit := do
  match ← blanks with
  | none => failAhead .endInObject
  | some b => if b = 58 then skip else failAhead .expectedColon

/-- The end of a list. -/
def listEnd : Reader Unit := do
  match ← blanks with
  | none => failAhead .endInList
  | some b =>
    if b = 93 then skip
    else if b = 44 then
      skip
      match ← blanks with
      | some c => if c = 93 then failAhead .trailingComma else failAhead .trailingCharacters
      | none => failAhead .trailingCharacters
    else failAhead .trailingCharacters

/-- The end of an object. -/
def objectEnd : Reader Unit := do
  match ← blanks with
  | none => failAhead .endInObject
  | some b =>
    if b = 125 then skip
    else if b = 44 then failAhead .trailingComma
    else failAhead .trailingCharacters

/-- From an opening bracket to the closing one. The end is looked for also when the inside has failed,
but then the failure of the inside counts. -/
def enclosed (inside : Reader α) (closing : Reader Unit) : Reader α := do
  skip
  let result ← ExceptT.lift inside.run
  let ending ← ExceptT.lift closing.run
  match result, ending with
  | .ok a, .ok () => return a
  | .error f, _ => throw f
  | _, .error f => throw f

/-- The items of a list; `fuel` bounds them. -/
def itemsOf (item : Reader α) : (fuel : Nat) → (first : Bool) → Reader (List α)
  | 0, _ => failAhead .endInList
  | fuel + 1, first => do
    if ← hasItem first then
      let a ← item
      return a :: (← itemsOf item fuel false)
    else return []

/-- The members of an object; `fuel` bounds them. -/
def membersOf (item : Reader α) : (fuel : Nat) → (first : Bool) → Reader (List (String × α))
  | 0, _ => failAhead .endInObject
  | fuel + 1, first => do
    if ← hasKey first then
      let key ← string
      colon
      let a ← item
      return (key, a) :: (← membersOf item fuel false)
    else return []

/-- A list, from its opening bracket. -/
def listOf (item : Reader α) : Reader (List α) := do
  enclosed (itemsOf item ((← remaining) + 1) true) listEnd

/-- An object, from its opening bracket. -/
def objectOf (item : Reader α) : Reader (List (String × α)) := do
  enclosed (membersOf item ((← remaining) + 1) true) objectEnd

/-! ## Kinds of value -/

/-- A value, with readers for lists and for objects. -/
def valueWith (list object : Reader Json) : Reader Json := do
  match ← blanks with
  | none => failAhead .endInValue
  | some b =>
    if b = 110 then
      skip
      literal [117, 108, 108]
      return .null
    else if b = 116 then
      skip
      literal [114, 117, 101]
      return .bool true
    else if b = 102 then
      skip
      literal [97, 108, 115, 101]
      return .bool false
    else if b = 34 then return .str (← string)
    else if b = 91 then list
    else if b = 123 then object
    else if b = 45 || isDigit b then return .num (← number)
    else failAhead .expectedValue

end Reader

end RestTables.Json
