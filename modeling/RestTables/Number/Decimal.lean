import RestTables.Number.Literal
import RestTables.Number.Shortest

/-
Module: RestTables.Number.Decimal
Purpose: Decimal numbers of 96 bits with up to 28 digits after the point, the form in which NUMERIC
  columns hold exact amounts; reading them from text, and going to and from double precision.
Main exports: Decimal, Decimal.read?, Decimal.readScientific?, Decimal.text, toBinary64, ofBinary64?
-/

namespace RestTables

/-- The number `coefficient / 10 ^ scale` with a sign; equal numbers of different scale are kept apart. -/
structure Decimal where
  negative : Bool
  coefficient : Nat
  scale : Nat
deriving Repr, DecidableEq, Inhabited

namespace Decimal

/-- Coefficients are below this bound. -/
def coefficientBound : Nat := twoTo 96

/-- The most digits after the point. -/
def maxScale : Nat := 28

/-- Zero read from text has no sign. -/
def of (negative : Bool) (coefficient scale : Nat) : Decimal :=
  ⟨negative && coefficient != 0, coefficient, scale⟩

/-! ## Reading -/

/-- What has been read of a decimal: the digits so far, whether the point has passed, and whether any
digit has been read. -/
structure Progress where
  coefficient : Nat
  scale : Nat
  point : Bool
  digits : Bool
deriving Repr, DecidableEq

/-- Another digit would be one too many after the point. -/
def Progress.isFull (p : Progress) : Bool := p.point && maxScale ≤ p.scale

/-- A coefficient below this bound is held in one word while its digits are read. -/
def narrowBound : Nat := (twoTo 64 - 1) / 10 - 255

/-- The last digit was added to a coefficient of one word. -/
def Progress.isNarrow (p : Progress) : Bool := p.coefficient / 10 < narrowBound

/-- What may stand behind the digits that count. -/
def isTail (c : Char) : Bool := c == '_' || Number.isDigit c

/-- Ending at a digit that no longer fits: it rounds what is there, a half going up. When the
coefficient itself grows out of bounds its last digit is dropped. Digits and underscores may follow. -/
def roundOff? (negative : Bool) (p : Progress) (digit : Nat) (rest : List Char) : Option Decimal :=
  let up := p.coefficient + 1
  if !rest.all isTail then none
  else if digit < 5 then some (of negative p.coefficient p.scale)
  else if up < coefficientBound then some (of negative up p.scale)
  else if p.scale == 0 then none
  else some (of negative ((up + 4) / 10) (p.scale - 1))

/-- Digits with one point and underscores between digits. Behind the last digit of a coefficient of one
word an underscore rounds like a zero; elsewhere it is passed over. -/
def readFrom? (negative : Bool) (p : Progress) : List Char → Option Decimal
  | [] => if p.digits then some (of negative p.coefficient p.scale) else none
  | c :: rest =>
    match Number.digit? c with
    | some d =>
      let grown := p.coefficient * 10 + d
      if p.isFull then roundOff? negative p d rest
      else if grown < coefficientBound then
        readFrom? negative ⟨grown, if p.point then p.scale + 1 else 0, p.point, true⟩ rest
      else if p.point then roundOff? negative p d rest
      else none
    | none =>
      if c = '.' ∧ ¬ p.point then readFrom? negative { p with point := true } rest
      else if c = '_' ∧ p.digits then
        if p.isFull && p.isNarrow then roundOff? negative p 0 rest else readFrom? negative p rest
      else none

/-- A decimal in plain notation. -/
def read? (s : List Char) : Option Decimal :=
  let (negative, rest) := Number.takeSign s
  readFrom? negative ⟨0, 0, false, false⟩ rest

/-- Fewer digits after the point: those past the first `scale` are dropped, a half going up. -/
def rescale (d : Decimal) (scale : Nat) : Decimal :=
  let unit := tenTo (d.scale - scale)
  { d with coefficient := (d.coefficient + unit / 2) / unit, scale }

/-- Multiplying by a power of ten. Digits that have no room after the point are rounded off; none when the
power is out of bounds or there are too many digits before the point. -/
def scaleBy? (d : Decimal) (power : Int) : Option Decimal :=
  if power < 0 then
    if maxScale < power.natAbs then none
    else
      let scale := d.scale + power.natAbs
      if scale ≤ maxScale then some { d with scale }
      else some { d.rescale (maxScale - power.natAbs) with scale := maxScale }
  else
    let power := power.toNat
    if power ≤ d.scale then some { d with scale := d.scale - power }
    else if power ≤ maxScale ∧ d.coefficient * tenTo (power - d.scale) < coefficientBound then
      some ⟨d.negative, d.coefficient * tenTo (power - d.scale), 0⟩
    else none

/-- The exponent of scientific notation: an optional minus, then an unsigned 32-bit number. -/
def readPower? : List Char → Option Int
  | '-' :: s => (Number.readNat? 32 s).map fun n => -(n : Int)
  | s => (Number.readNat? 32 s).map fun n => (n : Int)

/-- A decimal in scientific notation. -/
def readScientific? (s : List Char) : Option Decimal :=
  let isMark := fun c : Char => c == 'e' || c == 'E'
  match s.dropWhile (fun c => !isMark c) with
  | [] => none
  | _ :: power => do
    let base ← read? (s.takeWhile fun c => !isMark c)
    scaleBy? base (← readPower? power)

/-- A decimal in either notation. -/
def ofText? (s : List Char) : Option Decimal := read? s <|> readScientific? s

/-! ## Writing -/

/-- Plain notation with all digits of the scale, zeros at the end included. -/
def text (d : Decimal) : String :=
  let digits := (toString d.coefficient).toList
  let padded := List.replicate (d.scale + 1 - digits.length) '0' ++ digits
  let whole := padded.take (padded.length - d.scale)
  let fraction := padded.drop (padded.length - d.scale)
  (if d.negative then "-" else "") ++ String.ofList whole ++
    (if d.scale == 0 then "" else "." ++ String.ofList fraction)

/-! ## Double precision -/

/-- The whole number as a double. -/
def wholeFloat (n : Nat) : Binary64 := Binary64.ofInt n

/-- Ten to a power by repeated squaring, each product rounded. -/
def powerOfTen (n : Nat) : Binary64 :=
  go n n (Binary64.ofInt 1) (Binary64.ofInt 10)
where
  /-- Multiplies `base` into the result at each set bit of `n`. -/
  go : (fuel n : Nat) → (result base : Binary64) → Binary64
    | 0, _, result, _ => result
    | fuel + 1, n, result, base =>
      let result := if n % 2 == 1 then result.mul base else result
      if n / 2 == 0 then result else go fuel (n / 2) result (base.mul base)

/-- The double that stands for a decimal: whole part and fraction are converted apart, added, and the
sum is rounded at the decimal's scale. It may differ from the nearest double in the last bit. -/
def toBinary64 (d : Decimal) : Binary64 :=
  let signed := fun x : Binary64 => if d.negative then x.neg else x
  if d.scale == 0 then Binary64.ofInt (if d.negative then -(d.coefficient : Int) else d.coefficient)
  else
    let unit := tenTo d.scale
    let whole := wholeFloat (d.coefficient / unit)
    let fraction := (wholeFloat (d.coefficient % unit)).div (wholeFloat unit)
    if fraction.isZero then signed whole
    else
      let power := powerOfTen d.scale
      signed ((((whole.add fraction).mul power).round).div power)

/-- A coefficient and a power of ten on the way from a double to a decimal. -/
structure Pending where
  coefficient : Nat
  power : Int
deriving Repr, DecidableEq

namespace Pending

/-- One step of turning `2 ^ -n` into `5 ^ n * 10 ^ -n`: an even coefficient is halved instead, and
so is one that would grow out of bounds. -/
def timesFive (p : Pending) : Pending :=
  if p.coefficient % 2 == 0 || coefficientBound ≤ p.coefficient * 5 then ⟨p.coefficient / 2, p.power + 1⟩
  else ⟨p.coefficient * 5, p.power⟩

/-- Dropping the last digit, a half going up. -/
def dropDigit (p : Pending) : Pending := ⟨(p.coefficient + 5) / 10, p.power + 1⟩

/-- Digits are dropped until the scale is within bounds; what vanishes is zero of scale zero. -/
def fitScale : (fuel : Nat) → Pending → Pending
  | 0, p => p
  | fuel + 1, p =>
    if -(maxScale : Int) ≤ p.power then p
    else if p.coefficient < 10 then ⟨0, 0⟩
    else fitScale fuel p.dropDigit

/-- Digits after the point are dropped until the coefficient has the 52 bits a double guarantees. -/
def fitPrecision : (fuel : Nat) → Pending → Pending
  | 0, p => p
  | fuel + 1, p => if p.power < 0 ∧ twoTo 52 ≤ p.coefficient then fitPrecision fuel p.dropDigit else p

/-- Zeros at the end of the fraction are dropped. -/
def strip : (fuel : Nat) → Pending → Pending
  | 0, p => p
  | fuel + 1, p =>
    if p.power < 0 ∧ p.coefficient % 10 = 0 then strip fuel ⟨p.coefficient / 10, p.power + 1⟩ else p

end Pending

/-- The decimal for a double: a whole number exactly, a fraction to about fifteen digits; none when the
number does not fit. -/
def ofBinary64? (x : Binary64) : Option Decimal :=
  match x.view with
  | .finite negative 0 _ => some ⟨negative, 0, 0⟩
  | .finite negative m e =>
    if 0 ≤ e then
      let whole := m * twoTo e.toNat
      if whole < coefficientBound then some ⟨negative, whole, 0⟩ else none
    else
      let fives : Pending := Nat.repeat Pending.timesFive e.natAbs ⟨m, e⟩
      let fitted := ((fives.fitScale 1200).fitPrecision 100).strip 100
      some ⟨negative, fitted.coefficient, fitted.power.natAbs⟩
  | _ => none

example : (read? "1_0.50".toList).map text = some "10.50" := by decide +kernel
example : (read? "-0.0".toList).map text = some "0.0" := by decide +kernel
example : read? "1.2.3".toList = none ∧ read? "_1".toList = none ∧ read? "".toList = none := by decide +kernel
example : read? "0.00000000000000000000000000015a".toList = none := by decide +kernel
example :
    (read? "0.0000000000000000000000000001_9".toList).map text = some "0.0000000000000000000000000001" := by
  decide +kernel
example :
    (readScientific? "2.5e-28".toList).map text = some "0.0000000000000000000000000003" := by decide +kernel
example : (readScientific? "1.5e-3".toList).map text = some "0.0015" := by decide +kernel
example : (readScientific? "1.5E3".toList).map text = some "1500" := by decide +kernel
example : (ofBinary64? (Binary64.ofRatio false 1 10)).map text = some "0.1" := by decide +kernel
example : (ofBinary64? (Binary64.ofInt 3)).map text = some "3" := by decide +kernel
example : toBinary64 ⟨false, 99, 2⟩ = Binary64.ofRatio false 99 100 := by decide +kernel

end Decimal

end RestTables
