import RestTables.Text.Utf8
import RestTables.Text.Hex
import RestTables.Text.Split
import RestTables.Text.Affix

/-
Module: RestTables.Text.Form
Purpose: Percent-encoding and the form encoding of query strings. A pair is written `name=value`, pairs
  are joined by `&`; letters, digits and `*-._` stand for themselves, a space is `+`, and any other byte
  is `%` with two hexadecimal digits.
Main exports: percentDecode, parse, encodeText, encodePairs
-/

namespace RestTables.Text.Form

/-- Each `%` with two hexadecimal digits is the byte they write; any other byte stands for itself. -/
def percentDecode : List UInt8 → List UInt8
  | 37 :: h :: l :: s =>
    match Hex.value? (Char.ofNat h.toNat), Hex.value? (Char.ofNat l.toNat) with
    | some hi, some lo => UInt8.ofNat (hi * 16 + lo) :: percentDecode s
    | _, _ => 37 :: percentDecode (h :: l :: s)
  | b :: s => b :: percentDecode s
  | [] => []

/-- One name or value of a form: `+` is a space, then percent-decoding, then lenient UTF-8. -/
def decodePart (part : List Char) : String :=
  String.ofList (Utf8.decodeLossy (percentDecode
    ((Utf8.encode part).map fun b => if b == 43 then 32 else b)))

/-- The pairs of a query string in order. A part without `=` is a name with an empty value, an empty
part is nothing. -/
def parse (query : String) : List (String × String) :=
  ((split ['&'] query.toList).filter (!·.isEmpty)).map fun part =>
    match cut? '=' part with
    | some (name, value) => (decodePart name, decodePart value)
    | none => (decodePart part, "")

/-- The bytes that stand for themselves. -/
def isPlain (b : UInt8) : Bool :=
  (48 ≤ b && b ≤ 57) || (65 ≤ b && b ≤ 90) || (97 ≤ b && b ≤ 122) || b == 42 || b == 45 || b == 46 ||
    b == 95

/-- One byte of a name or value. -/
def encodeByte (b : UInt8) : List Char :=
  if isPlain b then [Char.ofNat b.toNat]
  else if b == 32 then ['+']
  else ['%', Hex.digitUpper (b.toNat / 16), Hex.digitUpper (b.toNat % 16)]

/-- A name or value in form encoding. -/
def encodeText (s : String) : List Char := (Utf8.encode s.toList).flatMap encodeByte

/-- Pairs in form encoding. -/
def encodePairs (pairs : List (String × String)) : String :=
  join "&" (pairs.map fun (name, value) =>
    String.ofList (encodeText name ++ '=' :: encodeText value))

example : parse "a=1&&b+c=%41%zz&d" = [("a", "1"), ("b c", "A%zz"), ("d", "")] := by decide +kernel
example : encodePairs [("a b", "é"), ("x", "*-._~")] = "a+b=%C3%A9&x=*-._%7E" := by decide +kernel

end RestTables.Text.Form
