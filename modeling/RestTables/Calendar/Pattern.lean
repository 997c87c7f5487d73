import RestTables.Calendar.Time
import RestTables.Text.Blank

/-
Module: RestTables.Calendar.Pattern
Purpose: Reading dates and times by patterns. A numeric item passes over leading blanks and takes as
  many digits as it may; everything else in a pattern stands for itself.
Main exports: Pattern, Fields, Pattern.read?, Fields.date?, Fields.time?
-/

namespace RestTables.Calendar

/-- One item of a pattern. -/
inductive Item where
  | year
  | month
  | day
  | hour
  | minute
  | second
  /-- A point and digits, or nothing. -/
  | fraction
  /-- The distance from universal time. -/
  | offset
  /-- Any run of blanks, even none. -/
  | gap
  | mark (c : Char)
deriving Repr, DecidableEq

/-- A pattern is read from left to right. -/
abbrev Pattern := List Item

/-- What a pattern has read; the offset in minutes. -/
structure Fields where
  year : Int
  month : Nat
  day : Nat
  hour : Nat
  minute : Nat
  second : Nat
  nanos : Nat
  offset : Option Int
deriving Repr, DecidableEq

/-- Before anything is read. -/
def Fields.blank : Fields := ⟨0, 0, 0, 0, 0, 0, 0, none⟩

/-- One up to `max` digits. -/
def digitsUpTo? (max : Nat) (s : List Char) : Option (Nat × List Char) :=
  let digits := (s.take max).takeWhile Number.isDigit
  if digits.isEmpty then none else some (Number.digitsFrom 0 digits, s.drop digits.length)

/-- Exactly `count` digits. -/
def digitsExactly? (count : Nat) (s : List Char) : Option (Nat × List Char) :=
  let digits := (s.take count).takeWhile Number.isDigit
  if digits.length = count then some (Number.digitsFrom 0 digits, s.drop count) else none

/-- All digits there are, one at least. -/
def allDigits? (s : List Char) : Option (Nat × List Char) := digitsUpTo? s.length s

/-- A year has up to four digits, or with a sign as many as there are. -/
def year? : List Char → Option (Int × List Char)
  | '-' :: s => (allDigits? s).map fun (n, rest) => (-(n : Int), rest)
  | '+' :: s => (allDigits? s).map fun (n, rest) => ((n : Int), rest)
  | s => (digitsUpTo? 4 s).map fun (n, rest) => ((n : Int), rest)

/-- The digits after a point, in nanoseconds; those past the ninth are dropped. -/
def nanos? (s : List Char) : Option (Nat × List Char) :=
  let digits := s.takeWhile Number.isDigit
  let used := digits.take 9
  if used.isEmpty then none
  else some (Number.digitsFrom 0 used * tenTo (9 - used.length), s.drop digits.length)

/-- The signs of an offset: plus, hyphen, and the typographic minus. -/
def offsetSign? : List Char → Option (Bool × List Char)
  | '+' :: s => some (false, s)
  | '-' :: s => some (true, s)
  | '−' :: s => some (true, s)
  | _ => none

/-- A sign, two digits of hours, what `separator` passes over, and two digits of minutes. -/
def offset? (separator : List Char → Option (List Char)) (s : List Char) : Option (Int × List Char) := do
  let (negative, s) ← offsetSign? s
  let (hours, s) ← digitsExactly? 2 s
  let (minutes, s) ← digitsExactly? 2 (← separator s)
  if minutes < 60 then
    let total : Int := hours * 60 + minutes
    some (if negative then -total else total, s)
  else none

/-- Between hours and minutes of an offset stand any colons and blanks. -/
def offsetSeparator (s : List Char) : List Char := s.dropWhile fun c => c == ':' || Text.isBlank c

/-- Reading one item. -/
def Item.read? (item : Item) (f : Fields) (s : List Char) : Option (Fields × List Char) :=
  match item with
  | .year => (year? (Text.trimStart s)).map fun (n, rest) => ({ f with year := n }, rest)
  | .month => (digitsUpTo? 2 (Text.trimStart s)).map fun (n, rest) => ({ f with month := n }, rest)
  | .day => (digitsUpTo? 2 (Text.trimStart s)).map fun (n, rest) => ({ f with day := n }, rest)
  | .hour => (digitsUpTo? 2 (Text.trimStart s)).map fun (n, rest) => ({ f with hour := n }, rest)
  | .minute => (digitsUpTo? 2 (Text.trimStart s)).map fun (n, rest) => ({ f with minute := n }, rest)
  | .second => (digitsUpTo? 2 (Text.trimStart s)).map fun (n, rest) => ({ f with second := n }, rest)
  | .fraction =>
    match s with
    | '.' :: digits => (nanos? digits).map fun (n, rest) => ({ f with nanos := n }, rest)
    | _ => some (f, s)
  | .offset =>
    (offset? (fun r => some (offsetSeparator r)) (Text.trimStart s)).map fun (n, rest) =>
      ({ f with offset := some n }, rest)
  | .gap => some (f, Text.trimStart s)
  | .mark c =>
    match s with
    | d :: rest => if d = c then some (f, rest) else none
    | [] => none

/-- Reading the items in turn; nothing may be left. -/
def Pattern.readFrom? (f : Fields) : Pattern → List Char → Option Fields
  | [], s => if s.isEmpty then some f else none
  | item :: items, s => do
    let (f, rest) ← item.read? f s
    readFrom? f items rest

/-- Reading a whole text. -/
def Pattern.read? (p : Pattern) (s : List Char) : Option Fields := p.readFrom? .blank s

/-- The date that was read, if it exists. -/
def Fields.date? (f : Fields) : Option Date := Date.of? f.year f.month f.day

/-- The time that was read, if there is one. -/
def Fields.time? (f : Fields) : Option Time := Time.of? f.hour f.minute f.second f.nanos

/-! ## The parts of patterns -/

/-- Year, month and day with hyphens. -/
def datePattern : Pattern := [.year, .mark '-', .month, .mark '-', .day]

/-- Hour and minute. -/
def minutePattern : Pattern := [.hour, .mark ':', .minute]

/-- Hour, minute, second and fraction. -/
def secondPattern : Pattern := minutePattern ++ [.mark ':', .second, .fraction]

end RestTables.Calendar

namespace RestTables

open Calendar in
/-- A date written with hyphens. -/
def Date.read? (s : List Char) : Option Date := (datePattern.read? s).bind Fields.date?

open Calendar in
/-- A time written to the second, with or without a fraction, or to the minute. -/
def Time.read? (s : List Char) : Option Time :=
  (secondPattern.read? s).bind Fields.time? <|> (minutePattern.read? s).bind Fields.time?

example : (Date.read? " 2009-1-2".toList).map Date.text = some "2009-01-02" := by decide +kernel
example : Date.read? "2009-01-02 ".toList = none ∧ Date.read? "12345-01-02".toList = none := by decide +kernel
example : (Time.read? "3:04:05.5".toList).map Time.text = some "03:04:05.500" := by decide +kernel
example : Time.read? "03:04:05.".toList = none := by decide +kernel

end RestTables
