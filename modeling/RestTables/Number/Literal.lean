import RestTables.Number.Binary64
import RestTables.Text.Letter

/-
Module: RestTables.Number.Literal
Purpose: Reading numbers from text. Integers are an optional sign and ASCII digits, checked against a
  range; floating-point numbers add a point, an exponent and the names of infinity and not-a-number.
Main exports: readInt?, readNat?, readFloat?, readSingle?
-/

namespace RestTables.Number

/-- The value of an ASCII digit. -/
def digit? (c : Char) : Option Nat := if '0' ≤ c ∧ c ≤ '9' then some (c.toNat - 48) else none

/-- An ASCII digit. -/
def isDigit (c : Char) : Bool := (digit? c).isSome

/-- The number that digits write, continuing from `start`. -/
def digitsFrom (start : Nat) (digits : List Char) : Nat :=
  digits.foldl (fun n c => n * 10 + (digit? c).getD 0) start

/-- The number written by one or more digits and nothing else. -/
def digits? (s : List Char) : Option Nat :=
  if s.isEmpty || !s.all isDigit then none else some (digitsFrom 0 s)

/-- A sign, if there is one, and what follows it; the sign is true for a minus. -/
def takeSign : List Char → Bool × List Char
  | '-' :: s => (true, s)
  | '+' :: s => (false, s)
  | s => (false, s)

/-- The least and greatest number of `bits` bits with a sign. -/
def inSigned (bits : Nat) (n : Int) : Bool := -(twoTo (bits - 1) : Int) ≤ n && n < twoTo (bits - 1)

/-- A signed integer that fits in `bits` bits. -/
def readInt? (bits : Nat) (s : List Char) : Option Int := do
  let (negative, digits) := takeSign s
  let n ← digits? digits
  let value : Int := if negative then -n else n
  if inSigned bits value then some value else none

/-- An unsigned integer that fits in `bits` bits; a plus sign is allowed, a minus is not. -/
def readNat? (bits : Nat) (s : List Char) : Option Nat := do
  let n ← digits? (match s with | '+' :: r => r | _ => s)
  if n < twoTo bits then some n else none

/-- A decimal number written with an optional point and an optional exponent: coefficient and exponent
of ten. -/
def readScientific? (s : List Char) : Option (Nat × Int) := do
  let whole := s.takeWhile isDigit
  let rest := s.dropWhile isDigit
  let (fraction, rest) := match rest with
    | '.' :: r => (r.takeWhile isDigit, r.dropWhile isDigit)
    | _ => ([], rest)
  if whole.isEmpty && fraction.isEmpty then none
  let power : Int ← match rest with
    | [] => some 0
    | c :: r =>
      if c = 'e' ∨ c = 'E' then
        let (negative, digits) := takeSign r
        (digits? digits).map fun n => if negative then -(n : Int) else n
      else none
  some (digitsFrom 0 (whole ++ fraction), power - fraction.length)

/-- The fraction `coefficient * 10 ^ exponent`, with exponents far outside every format cut off. -/
def toRatio (coefficient : Nat) (exponent : Int) : Nat × Nat :=
  let top : Int := exponent + (Nat.log2 coefficient / 3 : Nat)
  if coefficient == 0 || top < -800 then (0, 1)
  else if exponent > 800 then (tenTo 800, 1)
  else if exponent ≥ 0 then (coefficient * tenTo exponent.toNat, 1)
  else (coefficient, tenTo (-exponent).toNat)

/-- A double-precision number, correctly rounded. -/
def readFloat? (s : List Char) : Option Binary64 :=
  let (negative, rest) := takeSign s
  if Text.equalFold rest "inf".toList || Text.equalFold rest "infinity".toList then
    some (Binary64.infinity negative)
  else if Text.equalFold rest "nan".toList then some Binary64.nan
  else (readScientific? rest).map fun (c, e) => let (n, d) := toRatio c e; Binary64.ofRatio negative n d

/-- A single-precision number: the double-precision number that the text writes, rounded once more. -/
def readSingle? (s : List Char) : Option Binary64 := (readFloat? s).map Binary64.toSingle

example : readInt? 64 ['-', '0'] = some 0 := by decide +kernel
example : readInt? 64 "9223372036854775808".toList = none := by decide +kernel
example : readNat? 64 ['-', '0'] = none := by decide +kernel
example : readFloat? "5.".toList = some (Binary64.ofInt 5) := by decide +kernel
example : readFloat? "1e400".toList = some (Binary64.infinity false) := by decide +kernel
example : readFloat? ".".toList = none := by decide +kernel
example : readSingle? "16777217.00000000000000000000001".toList = some (Binary64.ofInt 16777216) := by
  decide +kernel

end RestTables.Number
