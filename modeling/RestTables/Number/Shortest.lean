import RestTables.Number.Binary64

/-
Module: RestTables.Number.Shortest
Purpose: The decimal text of a double-precision number: the fewest digits that read back as the same
  number, of these the nearest to it, laid out positionally for middling exponents.
Main exports: Digits, Binary64.shortest, Layout, Binary64.text
-/

namespace RestTables

/-- A decimal number `coefficient * 10 ^ exponent`. -/
structure Digits where
  coefficient : Nat
  exponent : Int
deriving Repr, DecidableEq, Inhabited

namespace Digits

/-- `num / den` is at least `10 ^ k`. -/
def atLeastPower (num den : Nat) (k : Int) : Bool :=
  if k ≥ 0 then den * tenTo k.toNat ≤ num else den ≤ num * tenTo (-k).toNat

/-- The exponent of the leading digit of the positive fraction `num / den`. -/
def leading (num den : Nat) : Int :=
  let guess : Int := ((Nat.log2 num : Int) - (Nat.log2 den : Int)) * 30103 / 100000
  if atLeastPower num den (guess + 1) then guess + 1
  else if atLeastPower num den guess then guess
  else guess - 1

/-- `num / den * 10 ^ -k` as a fraction. -/
def shift (num den : Nat) (k : Int) : Nat × Nat :=
  if k ≥ 0 then (num, den * tenTo k.toNat) else (num * tenTo (-k).toNat, den)

/-- Without the zeros at the end of the coefficient; `fuel` bounds their number. -/
def stripZeros : (fuel : Nat) → Digits → Digits
  | 0, d => d
  | fuel + 1, d =>
    if d.coefficient % 10 == 0 && d.coefficient != 0 then
      stripZeros fuel ⟨d.coefficient / 10, d.exponent + 1⟩
    else d

end Digits

/-- The real numbers that round to one floating-point number, scaled by a common denominator:
`value`, the ends `low` and `high`, and whether the ends belong to it. -/
structure RoundingInterval where
  value : Nat
  low : Nat
  high : Nat
  den : Nat
  closed : Bool
deriving Repr, DecidableEq

namespace RoundingInterval

/-- The numbers that round to `m * 2 ^ e`. The gap below a power of two is half as wide as the one
above it. -/
def of (m : Nat) (e : Int) : RoundingInterval :=
  let below := if m == twoTo 52 && e > -1074 then 1 else 2
  let unit := twoTo (max (e - 2) 0).toNat
  { value := 4 * m * unit
    low := (4 * m - below) * unit
    high := (4 * m + 2) * unit
    den := twoTo (max (2 - e) 0).toNat
    closed := m % 2 == 0 }

/-- The fraction `num / den` lies in the interval. -/
def holds (i : RoundingInterval) (num den : Nat) : Bool :=
  if i.closed then i.low * den ≤ num * i.den && num * i.den ≤ i.high * den
  else i.low * den < num * i.den && num * i.den < i.high * den

/-- The point of the grid `10 ^ k` in the interval that is nearest to the value, if there is one. One of
the value's two neighbours on the grid lies in the interval whenever any point does. -/
def onGrid? (i : RoundingInterval) (k : Int) : Option Nat :=
  let (n, d) := Digits.shift i.value i.den k
  let a := n / d
  let p := if k ≥ 0 then tenTo k.toNat else 1
  let q := if k ≥ 0 then 1 else tenTo (-k).toNat
  let lower := i.holds (a * p) q
  let upper := i.holds ((a + 1) * p) q
  match lower, upper with
  | true, true =>
    let r := n % d
    if 2 * r < d then some a else if d < 2 * r then some (a + 1)
    else if a % 2 == 0 then some a else some (a + 1)
  | true, false => some a
  | false, true => some (a + 1)
  | false, false => none

/-- The first grid with a point in the interval, from coarse to fine; `fuel` counts the grids left. -/
def firstGrid (i : RoundingInterval) : (fuel : Nat) → (k : Int) → Digits
  | 0, k => ⟨(i.onGrid? k).getD 0, k⟩
  | fuel + 1, k =>
    match i.onGrid? k with
    | some c => ⟨c, k⟩
    | none => firstGrid i fuel (k - 1)

end RoundingInterval

namespace Binary64

/-- The fewest digits that read back as `m * 2 ^ e`; seventeen always do. -/
def shortest (m : Nat) (e : Int) : Digits :=
  if m == 0 then ⟨0, 0⟩
  else
    let i := RoundingInterval.of m e
    (i.firstGrid 17 (Digits.leading i.value i.den)).stripZeros 400

/-- How digits are laid out: which leading exponents are written positionally. -/
structure Layout where
  minPositional : Int
  maxPositional : Int
deriving Repr, DecidableEq

/-- Positional from 0.00001 up to below 10^16; outside, one digit before the point and a signed
exponent, a plus included. -/
def layout : Layout := ⟨-5, 15⟩

/-- Digits in a layout; whole numbers written positionally end in `.0`. -/
def Layout.render (l : Layout) (d : Digits) : String :=
  let digits := toString d.coefficient
  let count := digits.length
  let top : Int := d.exponent + count - 1
  if l.minPositional ≤ top ∧ top ≤ l.maxPositional then
    if d.exponent ≥ 0 then digits ++ String.ofList (List.replicate d.exponent.toNat '0') ++ ".0"
    else if top ≥ 0 then
      String.ofList (digits.toList.take (top.toNat + 1)) ++ "." ++
        String.ofList (digits.toList.drop (top.toNat + 1))
    else "0." ++ String.ofList (List.replicate (-top - 1).toNat '0') ++ digits
  else
    let fraction := digits.toList.drop 1
    String.ofList (digits.toList.take 1) ++
      (if fraction.isEmpty then "" else "." ++ String.ofList fraction) ++
      "e" ++ (if top < 0 then "-" else "+") ++ toString top.natAbs

/-- The text of a finite number; none for the others. -/
def text? (x : Binary64) : Option String :=
  match x.view with
  | .finite negative m e => some ((if negative then "-" else "") ++ layout.render (shortest m e))
  | _ => none

example : text? (ofRatio false 3 10) = some "0.3" := by decide +kernel
example : text? (ofInt (tenTo 16)) = some "1e+16" := by decide +kernel
example : text? (ofInt (tenTo 15)) = some "1000000000000000.0" := by decide +kernel
example : text? (ofRatio false 15 (tenTo 8)) = some "1.5e-7" := by decide +kernel
example : text? ⟨1⟩ = some "5e-324" := by decide +kernel
example : text? ⟨0x7FEFFFFFFFFFFFFF⟩ = some "1.7976931348623157e+308" := by decide +kernel
example : text? (zero true) = some "-0.0" := by decide +kernel
example : text? (ofRatio false 3 10 |>.add (ofRatio false 0 1)) = some "0.3" := by decide +kernel

end Binary64

end RestTables
