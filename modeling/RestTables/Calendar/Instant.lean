import RestTables.Calendar.Pattern

/-
Module: RestTables.Calendar.Instant
Purpose: Dates with times, on a local clock or in universal time, and the texts and numbers that stand
  for them in requests and in stored rows.
Main exports: DateTime, DateTime.read?, DateTime.ofRfc3339?, DateTime.ofUnix?, DateTime.ofJulianDay?,
  DateTime.ofStored?, DateTime.instantOfStored?, Time.ofStored?
-/

namespace RestTables

/-- A date and a time of day. -/
structure DateTime where
  date : Date
  time : Time
deriving Repr, DecidableEq, Inhabited

namespace DateTime

open Calendar

/-- Date and time with a `T` between them. -/
def text (t : DateTime) : String := t.date.text ++ "T" ++ t.time.text

/-- An offset as sign, hours and minutes. -/
def offsetText (minutes : Int) : String :=
  (if minutes < 0 then "-" else "+") ++ Date.padded 2 (minutes.natAbs / 60) ++ ":" ++
    Date.padded 2 (minutes.natAbs % 60)

/-- Date and time with an offset behind them. -/
def textWithOffset (t : DateTime) (minutes : Int) : String := t.text ++ offsetText minutes

/-- A time in universal time. -/
def textUtc (t : DateTime) : String := t.textWithOffset 0

/-- The date and time some minutes later or earlier; none past the range of years. -/
def addMinutes? (t : DateTime) (minutes : Int) : Option DateTime :=
  let (time, days) := t.time.shift minutes
  (t.date.addDays? days).map fun date => ⟨date, time⟩

@[simp] theorem addMinutes?_zero (t : DateTime) : t.addMinutes? 0 = some t := by simp [addMinutes?]

/-- The local date and time that a pattern has read. -/
def ofFields? (f : Fields) : Option DateTime := do some ⟨← f.date?, ← f.time?⟩

/-- The instant of a local date and time at the offset read with it, where the offset is less than a
day and the instant in range. -/
def instantOfFields? (f : Fields) : Option DateTime := do
  let offset ← f.offset
  if offset.natAbs < 1440 then (← ofFields? f).addMinutes? (-offset) else none

/-! ## Texts -/

/-- One colon, which the strict form of an offset requires. -/
def colon? : List Char → Option (List Char)
  | ':' :: s => some s
  | _ => none

/-- The offset of the internet date format, in minutes: `Z`, or a sign with hours up to 23. -/
def strictOffset? : List Char → Option (Int × List Char)
  | 'Z' :: s => some (0, s)
  | 'z' :: s => some (0, s)
  | s => (offset? colon? s).bind fun (n, rest) => if n.natAbs < 1440 then some (n, rest) else none

/-- The parts of an instant written in the internet date format (RFC 3339). Every number has its full
width; a space may stand for the `T`. -/
def rfc3339Fields? (s : List Char) : Option Fields := do
  let (year, s) ← digitsExactly? 4 s
  let (_, s) ← Item.read? (.mark '-') .blank s
  let (month, s) ← digitsExactly? 2 s
  let (_, s) ← Item.read? (.mark '-') .blank s
  let (day, s) ← digitsExactly? 2 s
  let s ← match s with
    | 'T' :: r => some r
    | 't' :: r => some r
    | ' ' :: r => some r
    | _ => none
  let (hour, s) ← digitsExactly? 2 s
  let s ← colon? s
  let (minute, s) ← digitsExactly? 2 s
  let s ← colon? s
  let (second, s) ← digitsExactly? 2 s
  let (fraction, s) ← Item.read? .fraction .blank s
  let (offset, s) ← strictOffset? s
  if s.isEmpty then some ⟨year, month, day, hour, minute, second, fraction.nanos, some offset⟩ else none

/-- The instant written in the internet date format, in universal time. -/
def ofRfc3339? (s : List Char) : Option DateTime := (rfc3339Fields? s).bind instantOfFields?

/-- Patterns of a local date and time, in the order tried. -/
def localPatterns : List Pattern :=
  [datePattern ++ .mark 'T' :: secondPattern, datePattern ++ .gap :: secondPattern,
   datePattern ++ .mark 'T' :: minutePattern, datePattern ++ .gap :: minutePattern]

/-- A local date and time. An instant counts in universal time and a date alone at midnight. -/
def read? (s : List Char) : Option DateTime :=
  (localPatterns.findSome? fun p => (p.read? s).bind ofFields?) <|>
    ofRfc3339? s <|> (Date.read? s).map (⟨·, Time.midnight⟩)

/-- An instant; a local date and time counts as universal time. -/
def readUtc? (s : List Char) : Option DateTime := ofRfc3339? s <|> read? s

/-- A date and time with an offset, in local time, and the offset in minutes. -/
def readWithOffset? (s : List Char) : Option (DateTime × Int) := do
  let f ← (datePattern ++ Item.mark 'T' :: secondPattern ++ [Item.offset]).read? s
  some (← ofFields? f, ← f.offset)

/-! ## Stored forms -/

/-- The instant so many seconds after the first of January 1970. -/
def ofUnix? (seconds : Int) (nanos : Nat) : Option DateTime := do
  let date ← Date.ofDays? (seconds / 86400)
  let time ← Time.ofSecond? (seconds % 86400).toNat nanos
  some ⟨date, time⟩

/-- The Julian day on which 1970 begins. -/
def julianEpoch : Binary64 := Binary64.ofRatio false 24405875 10

/-- The whole and the broken seconds of a Julian day since 1970, the latter without sign. -/
def ofJulianDay? (day : Binary64) : Option DateTime := do
  let seconds := (day.sub julianEpoch).mul (Binary64.ofInt 86400)
  let whole ← seconds.truncate?
  let broken ← ((seconds.sub (Binary64.ofInt whole)).mul (Binary64.ofInt (tenTo 9))).truncate?
  ofUnix? whole broken.natAbs

/-- What may follow the time of day in stored text: nothing, `Z`, or an offset. -/
def zoneEndings : List Pattern := [[], [Item.mark 'Z'], [Item.offset]]

/-- Patterns of stored dates and times, in the order tried. -/
def storedPatterns : List Pattern :=
  let spaced := datePattern ++ [.gap]
  let marked := datePattern ++ [.mark 'T']
  [spaced ++ secondPattern] ++ zoneEndings.map (spaced ++ minutePattern ++ ·) ++
    (zoneEndings.drop 1).map (spaced ++ secondPattern ++ ·) ++
    zoneEndings.map (marked ++ minutePattern ++ ·) ++ zoneEndings.map (marked ++ secondPattern ++ ·)

/-- The parts of the date and time that stored text writes. -/
def storedFields? (s : List Char) : Option Fields :=
  (rfc3339Fields? s).filter (fun f => (instantOfFields? f).isSome) <|>
    storedPatterns.findSome? fun p => (p.read? s).filter fun f => (ofFields? f).isSome

/-- The local date and time that stored text writes; an offset is passed over. -/
def ofStored? (s : List Char) : Option DateTime := (storedFields? s).bind ofFields?

/-- The instant that stored text writes; an offset that names no instant is left out of account. -/
def instantOfStored? (s : List Char) : Option DateTime :=
  (storedFields? s).bind fun f => instantOfFields? f <|> ofFields? f

end DateTime

open Calendar in
/-- Patterns of stored times of day, in the order tried. The first ends in a point and the letter `f`. -/
def Time.storedPatterns : List Pattern :=
  [minutePattern ++ [.mark ':', .second, .mark '.', .mark 'f'], secondPattern, minutePattern,
    minutePattern ++ [.mark 'Z'], secondPattern ++ [.mark 'Z'], minutePattern ++ [.offset],
    secondPattern ++ [.offset]]

open Calendar in
/-- The time of day that stored text writes; an offset is passed over. -/
def Time.ofStored? (s : List Char) : Option Time :=
  Time.storedPatterns.findSome? fun p => (p.read? s).bind Fields.time?

namespace DateTime

example : (read? "2009-01-02".toList).map text = some "2009-01-02T00:00:00" := by decide +kernel
example : (ofRfc3339? "2009-01-02T03:04:05+02:00".toList).map textUtc = some "2009-01-02T01:04:05+00:00" := by
  decide +kernel
example : (ofRfc3339? "0000-01-01T00:00:00+01:00".toList).map textUtc = some "-0001-12-31T23:00:00+00:00" := by
  decide +kernel
example : (ofStored? "2009-01-02 03:04".toList).map text = some "2009-01-02T03:04:00" := by decide +kernel
example : (ofStored? "2009-01-02T03:04:05+02:00".toList).map text = some "2009-01-02T03:04:05" := by
  decide +kernel
example : (instantOfStored? "2009-01-02T03:04:05+02:00".toList).map text = some "2009-01-02T01:04:05" := by
  decide +kernel
example : (Time.ofStored? "1:02:03.f".toList).map Time.text = some "01:02:03" := by decide +kernel
example : (ofUnix? 5 0).map text = some "1970-01-01T00:00:05" := by decide +kernel
example : (ofJulianDay? (Binary64.ofInt 2)).map text = some "-4713-11-26T12:00:00" := by decide +kernel

end DateTime

end RestTables
