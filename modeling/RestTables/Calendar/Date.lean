import RestTables.Number.Literal

/-
Module: RestTables.Calendar.Date
Purpose: Dates of the Gregorian calendar, extended before its introduction, within the years that a
  count of days in 32 bits can reach; a date that does not exist cannot be formed.
Main exports: Date, Date.of?, Date.toDays, Date.ofDays?, Date.text
-/

namespace RestTables

namespace Date

/-- The first year. -/
def minYear : Int := -262143

/-- The last year. -/
def maxYear : Int := 262142

/-- Every fourth year, but of the centuries only every fourth. -/
def isLeap (year : Int) : Bool := year % 4 == 0 && (year % 100 != 0 || year % 400 == 0)

/-- The number of days of a month; none at all for a number that names no month. -/
def daysIn (year : Int) : Nat → Nat
  | 1 | 3 | 5 | 7 | 8 | 10 | 12 => 31
  | 4 | 6 | 9 | 11 => 30
  | 2 => if isLeap year then 29 else 28
  | _ => 0

/-- The year is in range and the month has such a day. -/
abbrev Exists (year : Int) (month day : Nat) : Prop :=
  minYear ≤ year ∧ year ≤ maxYear ∧ 1 ≤ day ∧ day ≤ daysIn year month

end Date

/-- A day of the calendar. -/
structure Date where
  year : Int
  month : Nat
  day : Nat
  exist : Date.Exists year month day
deriving Repr, DecidableEq

namespace Date

instance : Inhabited Date := ⟨⟨1970, 1, 1, by decide⟩⟩

/-- The date, if there is such a day. -/
def of? (year : Int) (month day : Nat) : Option Date :=
  if h : Exists year month day then some ⟨year, month, day, h⟩ else none

@[simp] theorem of?_fields (d : Date) : of? d.year d.month d.day = some d :=
  dif_pos d.exist

/-- Days since the first of January 1970. Years are counted from March, so that a leap day ends its
year, in eras of four centuries. -/
def toDays (d : Date) : Int :=
  let year := if d.month ≤ 2 then d.year - 1 else d.year
  let era := year.fdiv 400
  let yearOfEra := year - era * 400
  let shifted : Int := if d.month > 2 then d.month - 3 else d.month + 9
  let dayOfYear := (153 * shifted + 2) / 5 + d.day - 1
  let dayOfEra := yearOfEra * 365 + yearOfEra / 4 - yearOfEra / 100 + dayOfYear
  era * 146097 + dayOfEra - 719468

/-- The date so many days after the first of January 1970, if its year is in range. -/
def ofDays? (days : Int) : Option Date :=
  let fromMarch := days + 719468
  let era := fromMarch.fdiv 146097
  let dayOfEra := fromMarch - era * 146097
  let yearOfEra := (dayOfEra - dayOfEra / 1460 + dayOfEra / 36524 - dayOfEra / 146096) / 365
  let dayOfYear := dayOfEra - (365 * yearOfEra + yearOfEra / 4 - yearOfEra / 100)
  let shifted := (5 * dayOfYear + 2) / 153
  let day := dayOfYear - (153 * shifted + 2) / 5 + 1
  let month := if shifted < 10 then shifted + 3 else shifted - 9
  let year := yearOfEra + era * 400
  of? (if month ≤ 2 then year + 1 else year) month.toNat day.toNat

/-- The date some days later or earlier. -/
def addDays? (d : Date) (days : Int) : Option Date :=
  if days = 0 then some d else ofDays? (d.toDays + days)

@[simp] theorem addDays?_zero (d : Date) : d.addDays? 0 = some d := by simp [addDays?]

/-- A number with zeros in front, up to `width` digits. -/
def padded (width n : Nat) : String :=
  let digits := (toString n).toList
  String.ofList (List.replicate (width - digits.length) '0' ++ digits)

/-- A year has four digits at least, and a sign outside the years 0 to 9999. -/
def yearText (year : Int) : String :=
  if year < 0 then "-" ++ padded 4 year.natAbs
  else if year > 9999 then "+" ++ padded 4 year.natAbs
  else padded 4 year.natAbs

/-- Year, month and day, joined by hyphens. -/
def text (d : Date) : String := yearText d.year ++ "-" ++ padded 2 d.month ++ "-" ++ padded 2 d.day

example : (of? 2000 2 29).isSome ∧ of? 1900 2 29 = none ∧ of? 2001 13 1 = none := by decide
example : (of? 2009 1 2).map toDays = some 14246 := by decide
example : (ofDays? 14246).map text = some "2009-01-02" := by decide +kernel
example : (ofDays? (-719529)).map text = some "-0001-12-31" := by decide +kernel
example : (of? 1970 1 1).bind (·.addDays? (-1)) = of? 1969 12 31 := by decide +kernel

end Date

end RestTables
