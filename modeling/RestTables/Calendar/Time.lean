import RestTables.Calendar.Date

/-
Module: RestTables.Calendar.Time
Purpose: Times of day to the nanosecond. A leap second is held as a 59th second with more than a
  billion nanoseconds, so that it keeps its place in the order of times.
Main exports: Time, Time.of?, Time.shift, Time.text
-/

namespace RestTables

/-- A time of day; only second 59 may hold the nanoseconds of a leap second too. -/
structure Time where
  hour : Nat
  minute : Nat
  second : Nat
  nanos : Nat
  hour_lt : hour < 24
  minute_lt : minute < 60
  second_lt : second < 60
  nanos_lt : nanos < 1000000000 ∨ (second = 59 ∧ nanos < 2000000000)
deriving Repr, DecidableEq

namespace Time

instance : Inhabited Time := ⟨⟨0, 0, 0, 0, by decide, by decide, by decide, by decide⟩⟩

/-- Midnight. -/
def midnight : Time := default

/-- The time with these parts, if there is one. -/
def ofParts? (hour minute second nanos : Nat) : Option Time :=
  if h : hour < 24 ∧ minute < 60 ∧ second < 60 ∧
      (nanos < 1000000000 ∨ (second = 59 ∧ nanos < 2000000000)) then
    some ⟨hour, minute, second, nanos, h.1, h.2.1, h.2.2.1, h.2.2.2⟩
  else none

@[simp] theorem ofParts?_fields (t : Time) : ofParts? t.hour t.minute t.second t.nanos = some t := by
  simp only [ofParts?, t.hour_lt, t.minute_lt, t.second_lt, t.nanos_lt, true_and, dite_true]

/-- The time a clock shows, second 60 being a leap second. -/
def of? (hour minute second nanos : Nat) : Option Time :=
  if second = 60 then (if nanos < 1000000000 then ofParts? hour minute 59 (nanos + 1000000000) else none)
  else ofParts? hour minute second nanos

/-- The second as a clock shows it. -/
def shownSecond (t : Time) : Nat := if t.nanos < 1000000000 then t.second else 60

/-- The nanoseconds as a clock shows them. -/
def shownNanos (t : Time) : Nat := if t.nanos < 1000000000 then t.nanos else t.nanos - 1000000000

/-- The clock's reading determines the time. -/
@[simp] theorem of?_shown (t : Time) : of? t.hour t.minute t.shownSecond t.shownNanos = some t := by
  have hn := t.nanos_lt
  have hs := t.second_lt
  by_cases h : t.nanos < 1000000000
  · have : t.second ≠ 60 := by omega
    simp only [of?, shownSecond, shownNanos, h, if_true, this, if_false]
    exact ofParts?_fields t
  · have h59 : t.second = 59 := by omega
    have hb : t.nanos - 1000000000 < 1000000000 := by omega
    have he : t.nanos - 1000000000 + 1000000000 = t.nanos := by omega
    simp only [of?, shownSecond, shownNanos, h, if_false, if_true, hb, he]
    have := ofParts?_fields t
    rwa [h59] at this

/-- The time so many minutes later or earlier, and how many days that goes on or back. -/
def shift (t : Time) (minutes : Int) : Time × Int :=
  let total := (t.hour * 60 + t.minute : Nat) + minutes
  let ofDay := (total % 1440).toNat
  have bound : ofDay < 1440 := by omega
  (⟨ofDay / 60, ofDay % 60, t.second, t.nanos, by omega, by omega, t.second_lt, t.nanos_lt⟩, total / 1440)

@[simp] theorem shift_zero (t : Time) : t.shift 0 = (t, 0) := by
  have hh := t.hour_lt
  have hm := t.minute_lt
  cases t with
  | mk hour minute second nanos a b c d =>
    simp only [shift, Prod.mk.injEq, mk.injEq, and_true] at *
    refine ⟨⟨?_, ?_⟩, ?_⟩ <;> omega

/-- The time of a second of the day. -/
def ofSecond? (second nanos : Nat) : Option Time :=
  ofParts? (second / 3600) (second / 60 % 60) (second % 60) nanos

/-- A fraction of a second in three, six or nine digits, the fewest that are exact; none for zero. -/
def fractionText (nanos : Nat) : String :=
  if nanos = 0 then ""
  else if nanos % 1000000 = 0 then "." ++ Date.padded 3 (nanos / 1000000)
  else if nanos % 1000 = 0 then "." ++ Date.padded 6 (nanos / 1000)
  else "." ++ Date.padded 9 nanos

/-- Hour, minute and second joined by colons, then the fraction. -/
def text (t : Time) : String :=
  Date.padded 2 t.hour ++ ":" ++ Date.padded 2 t.minute ++ ":" ++ Date.padded 2 t.shownSecond ++
    fractionText t.shownNanos

example : (of? 23 59 60 500000000).map text = some "23:59:60.500" := by decide +kernel
example : of? 24 0 0 0 = none := by decide
example :
    ((of? 0 30 0 0).map fun t => ((t.shift (-60)).1.text, (t.shift (-60)).2)) = some ("23:30:00", -1) := by
  decide +kernel

end Time

end RestTables
