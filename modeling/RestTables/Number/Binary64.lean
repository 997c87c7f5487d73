import RestTables.Number.Power

/-
Module: RestTables.Number.Binary64
Purpose: Double-precision numbers held by their bits. Every operation is the exact rational result,
  rounded once to the nearest representable number, ties to the even mantissa; nothing depends on the
  machine's floating point.
Main exports: Binary64, Binary64.view, Binary64.ofRatio, Binary64.single, add, mul, div
-/

namespace RestTables

/-- A double-precision number: sign, eleven bits of exponent, 52 bits of fraction. -/
structure Binary64 where
  bits : UInt64
deriving Repr, DecidableEq, Inhabited

namespace Binary64

/-- What the bits say: not a number, an infinity, or `mantissa * 2 ^ exponent` with a sign. -/
inductive View where
  | nan
  | infinite (negative : Bool)
  | finite (negative : Bool) (mantissa : Nat) (exponent : Int)
deriving Repr, DecidableEq, Inhabited

/-- A binary format by its precision in bits and the exponents of its mantissas. -/
structure Format where
  precision : Nat
  minExponent : Int
  maxExponent : Int
deriving Repr, DecidableEq

/-- The format of 64 bits. -/
def double : Format := ⟨53, -1074, 971⟩

/-- The format of 32 bits. -/
def single : Format := ⟨24, -149, 104⟩

/-- Reading the bits. -/
def view (x : Binary64) : View :=
  let n := x.bits.toNat
  let negative := n / twoTo 63 == 1
  let exponent := n / twoTo 52 % 2048
  let fraction := n % twoTo 52
  if exponent == 2047 then (if fraction == 0 then .infinite negative else .nan)
  else if exponent == 0 then .finite negative fraction (-1074)
  else .finite negative (twoTo 52 + fraction) (Int.ofNat exponent - 1075)

/-- The sign bit alone. -/
def signBit (negative : Bool) : Nat := if negative then twoTo 63 else 0

/-- The quiet not-a-number. -/
def nan : Binary64 := ⟨0x7FF8000000000000⟩

/-- An infinity. -/
def infinity (negative : Bool) : Binary64 := ⟨UInt64.ofNat (signBit negative + 2047 * twoTo 52)⟩

/-- A zero. -/
def zero (negative : Bool) : Binary64 := ⟨UInt64.ofNat (signBit negative)⟩

/-- The bits of `mantissa * 2 ^ exponent`, for a mantissa of at most 53 bits that is normal or has the
least exponent. -/
def ofParts (negative : Bool) (mantissa : Nat) (exponent : Int) : Binary64 :=
  if mantissa < twoTo 52 then ⟨UInt64.ofNat (signBit negative + mantissa)⟩
  else if mantissa < twoTo 53 then
    ⟨UInt64.ofNat (signBit negative + (exponent + 1075).toNat * twoTo 52 + (mantissa - twoTo 52))⟩
  else ⟨UInt64.ofNat (signBit negative + (exponent + 1076).toNat * twoTo 52)⟩

/-- The quotient `num / den` rounded to the nearest whole number, ties to even. -/
def roundDiv (num den : Nat) : Nat :=
  let q := num / den
  let r := num % den
  if 2 * r < den then q else if den < 2 * r then q + 1 else if q % 2 == 0 then q else q + 1

/-- `num / den * 2 ^ -exponent` as a fraction. -/
def scale (num den : Nat) (exponent : Int) : Nat × Nat :=
  if exponent ≥ 0 then (num, den * twoTo exponent.toNat) else (num * twoTo (-exponent).toNat, den)

/-- The mantissa and exponent nearest to the positive fraction `num / den`; none when it is too large. -/
def nearest (f : Format) (num den : Nat) : Option (Nat × Int) :=
  let guess : Int := (Nat.log2 num : Int) - (Nat.log2 den : Int) - (f.precision - 1 : Nat)
  let (n, d) := scale num den guess
  let exact : Int := if n < d * twoTo (f.precision - 1) then guess - 1 else guess
  let exponent := max exact f.minExponent
  let (n, d) := scale num den exponent
  let m := roundDiv n d
  let (m, exponent) := if m == twoTo f.precision then (twoTo (f.precision - 1), exponent + 1) else (m, exponent)
  if exponent > f.maxExponent then none else some (m, exponent)

/-- The number nearest to the fraction `num / den`; too large a fraction gives an infinity. -/
def ofRatio (negative : Bool) (num den : Nat) : Binary64 :=
  if num == 0 then zero negative
  else match nearest double num den with
    | none => infinity negative
    | some (m, e) => ofParts negative m e

/-- The number nearest to a rational with numerator `n`. -/
def ofRational (n : Int) (den : Nat) : Binary64 := ofRatio (n < 0) n.natAbs den

/-- The number nearest to a whole number. -/
def ofInt (n : Int) : Binary64 := ofRational n 1

/-- The exact value of a finite number as numerator and denominator. -/
def toRational? (x : Binary64) : Option (Int × Nat) :=
  match x.view with
  | .finite negative m e =>
    let s : Int := if negative then -1 else 1
    if e ≥ 0 then some (s * (m * twoTo e.toNat : Nat), 1) else some (s * m, twoTo (-e).toNat)
  | _ => none

/-- The number of the 32-bit format nearest to a number, held in 64 bits. -/
def toSingle (x : Binary64) : Binary64 :=
  match x.toRational? with
  | none => x
  | some (n, d) =>
    if n = 0 then x
    else match nearest single n.natAbs d with
      | none => infinity (n < 0)
      | some (m, e) => let (a, b) := scale m 1 (-e); ofRatio (n < 0) a b

/-- Neither infinite nor not-a-number. -/
def isFinite (x : Binary64) : Bool :=
  match x.view with
  | .finite .. => true
  | _ => false

/-- Either zero. -/
def isZero (x : Binary64) : Bool :=
  match x.view with
  | .finite _ 0 _ => true
  | _ => false

/-- The sign bit is set. -/
def isNegative (x : Binary64) : Bool := x.bits.toNat / twoTo 63 == 1

/-- The number with the other sign. -/
def neg (x : Binary64) : Binary64 := ⟨x.bits ^^^ 0x8000000000000000⟩

/-- A binary operation on the exact values of finite numbers. -/
def lift₂ (op : Int × Nat → Int × Nat → Int × Nat) (x y : Binary64) : Binary64 :=
  match x.toRational?, y.toRational? with
  | some a, some b => let (n, d) := op a b; ofRational n d
  | _, _ => nan

/-- The sum of finite numbers. -/
def add : Binary64 → Binary64 → Binary64 := lift₂ fun (a, b) (c, d) => (a * d + c * b, b * d)

/-- The difference of finite numbers. -/
def sub : Binary64 → Binary64 → Binary64 := lift₂ fun (a, b) (c, d) => (a * d - c * b, b * d)

/-- The product of finite numbers. -/
def mul : Binary64 → Binary64 → Binary64 := lift₂ fun (a, b) (c, d) => (a * c, b * d)

/-- The quotient of a finite number by a finite number other than zero. -/
def div : Binary64 → Binary64 → Binary64 :=
  lift₂ fun (a, b) (c, d) => (if c < 0 then -(a * d) else a * d, b * c.natAbs)

/-- The whole part of a finite number, toward zero. -/
def truncate? (x : Binary64) : Option Int := x.toRational?.map fun (n, d) => Int.tdiv n d

/-- The nearest whole number, a half going away from zero. -/
def round (x : Binary64) : Binary64 :=
  match x.toRational? with
  | none => x
  | some (n, d) => ofRational (Int.sign n * ((2 * n.natAbs + d) / (2 * d) : Nat)) 1

example : (ofRatio false 1 10).bits = 0x3FB999999999999A := by decide +kernel
example : (ofRatio false 1 3).view = .finite false 6004799503160661 (-54) := by decide +kernel
example : ofInt 9007199254740993 = ofInt 9007199254740992 := by decide +kernel
example : ofRatio false (tenTo 400) 1 = infinity false := by decide +kernel
example : (ofRatio false 1 10).toSingle.view = .finite false 7205759511166976 (-56) := by decide +kernel

end Binary64

end RestTables
