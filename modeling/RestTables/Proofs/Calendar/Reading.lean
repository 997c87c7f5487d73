import RestTables.Proofs.Calendar.Text
import RestTables.Proofs.Number.Literal

/-
Module: RestTables.Proofs.Calendar.Reading
Purpose: Dates, times of day, and dates with times are read back from their texts, and instants from theirs when their
  year has four digits. Every number is written in the digits that its item takes, and what follows it is no digit
  wherever the item could take more.
Main exports: Calendar.readFrom?_date, Calendar.readFrom?_time, Date.read?_text, Time.read?_text, DateTime.read?_text,
  DateTime.readUtc?_textUtc
-/

namespace RestTables

namespace Calendar

open Date

/-! ## Numbers -/

section Digits

variable {digits rest : List Char} {max : Nat}

/-- An item takes the digits that are there, if it takes no more. -/
theorem digitsUpTo?_append (hne : digits ≠ []) (hdigits : ∀ c ∈ digits, c.isDigit = true)
    (hmax : digits.length ≤ max) (hstop : ∀ c ∈ (rest.take (max - digits.length)).head?, c.isDigit = false) :
    digitsUpTo? max (digits ++ rest) = some (Nat.ofDigitChars 10 digits 0, rest) := by
  have htake : ((digits ++ rest).take max).takeWhile Number.isDigit = digits := by
    rw [List.take_append, List.take_of_length_le hmax, Number.takeWhile_digits hdigits hstop]
  simp only [digitsUpTo?, htake, List.isEmpty_iff, hne, ↓reduceIte, List.drop_left,
    Number.digitsFrom_eq_ofDigitChars hdigits]

end Digits

section Padded

variable {width n : Nat}

theorem padded_ne_nil (width n : Nat) : (padded width n).toList ≠ [] := by
  rw [toList_padded]
  exact List.append_ne_nil_of_right_ne_nil _ (Nat.toDigits_ne_nil)

/-- No blank is in front of a number. -/
theorem trimStart_padded (width n : Nat) (rest : List Char) :
    Text.trimStart ((padded width n).toList ++ rest) = (padded width n).toList ++ rest := by
  obtain ⟨c, digits, hdigits⟩ := List.exists_cons_of_ne_nil (padded_ne_nil width n)
  have hc : c.isDigit = true := isDigit_of_mem_padded (hdigits ▸ List.mem_cons_self)
  rw [hdigits, List.cons_append, Text.trimStart,
    List.dropWhile_cons_of_neg (by rw [Text.isBlank_of_isDigit hc]; decide)]

/-- A number of full width is read, whatever follows. -/
theorem digitsUpTo?_padded (hwidth : 0 < width) (hn : n < 10 ^ width) (rest : List Char) :
    digitsUpTo? width ((padded width n).toList ++ rest) = some (n, rest) := by
  have hlength : (padded width n).toList.length = width := length_padded hwidth hn
  rw [digitsUpTo?_append (padded_ne_nil width n) (fun c => isDigit_of_mem_padded) (Nat.le_of_eq hlength),
    ofDigitChars_padded]
  rw [hlength, Nat.sub_self]
  nofun

/-- Any number is read where all digits are taken and a mark follows it. -/
theorem allDigits?_padded (width n : Nat) {c : Char} (hc : c.isDigit = false) (rest : List Char) :
    allDigits? ((padded width n).toList ++ c :: rest) = some (n, c :: rest) := by
  rw [allDigits?, digitsUpTo?_append (padded_ne_nil width n) (fun c => isDigit_of_mem_padded)
    (by rw [List.length_append]; omega), ofDigitChars_padded]
  rw [List.length_append, Nat.add_sub_cancel_left, List.take_length]
  rintro c' ⟨⟩
  exact hc

/-- Where exactly so many digits are asked for, a number of full width is read. -/
theorem digitsExactly?_padded (hwidth : 0 < width) (hn : n < 10 ^ width) (rest : List Char) :
    digitsExactly? width ((padded width n).toList ++ rest) = some (n, rest) := by
  have hlength : (padded width n).toList.length = width := length_padded hwidth hn
  have htake : ((padded width n).toList ++ rest).take width = (padded width n).toList := List.take_left' hlength
  have hall : (padded width n).toList.takeWhile Number.isDigit = (padded width n).toList := by
    have hdigits := @Number.takeWhile_digits (padded width n).toList [] (fun c => isDigit_of_mem_padded) nofun
    rwa [List.append_nil] at hdigits
  rw [digitsExactly?, htake, hall, if_pos hlength, List.drop_left' hlength,
    Number.digitsFrom_eq_ofDigitChars fun c => isDigit_of_mem_padded, ofDigitChars_padded]

/-- The digits of a fraction count from the point on. -/
theorem nanos?_padded (hwidth : 0 < width) (hmost : width ≤ 9) (hn : n < 10 ^ width) {rest : List Char}
    (hstop : ∀ c ∈ rest.head?, c.isDigit = false) :
    nanos? ((padded width n).toList ++ rest) = some (n * 10 ^ (9 - width), rest) := by
  have hlength : (padded width n).toList.length = width := length_padded hwidth hn
  have hall : ((padded width n).toList ++ rest).takeWhile Number.isDigit = (padded width n).toList :=
    Number.takeWhile_digits (fun c => isDigit_of_mem_padded) hstop
  have hvalue : Number.digitsFrom 0 (padded width n).toList = n := by
    rw [Number.digitsFrom_eq_ofDigitChars fun c => isDigit_of_mem_padded, ofDigitChars_padded]
  have htake : (padded width n).toList.take 9 = (padded width n).toList :=
    List.take_of_length_le (by rw [hlength]; exact hmost)
  have hdrop : ((padded width n).toList ++ rest).drop width = rest := List.drop_left' hlength
  have hten : tenTo (9 - width) = 10 ^ (9 - width) := rfl
  simp only [nanos?, hall, htake, List.isEmpty_iff, padded_ne_nil, ↓reduceIte, hvalue, hlength, hdrop, hten]

end Padded

/-- A year is read back, with its sign. -/
theorem year?_yearText (year : Int) (rest : List Char) :
    year? ((yearText year).toList ++ '-' :: rest) = some (year, '-' :: rest) := by
  have hall := allDigits?_padded 4 year.natAbs (show Char.isDigit '-' = false from rfl) rest
  rw [toList_yearText]
  unfold yearSign
  split
  · next hbelow =>
    have habs : -(year.natAbs : Int) = year := by omega
    simp only [List.cons_append, List.nil_append, year?, hall, Option.map_some, habs]
  · next hbelow =>
    split
    · next habove =>
      have habs : (year.natAbs : Int) = year := by omega
      simp only [List.cons_append, List.nil_append, year?, hall, Option.map_some, habs]
    · next habove =>
      have habs : (year.natAbs : Int) = year := by omega
      have hread := digitsUpTo?_padded (show 0 < 4 by decide) (show year.natAbs < 10 ^ 4 by omega) ('-' :: rest)
      -- the year begins with a digit, so that no sign is taken
      obtain ⟨c, digits, hdigits⟩ := List.exists_cons_of_ne_nil (padded_ne_nil 4 year.natAbs)
      have hc : c.isDigit = true := isDigit_of_mem_padded (hdigits ▸ List.mem_cons_self)
      rw [List.nil_append]
      unfold year?
      split
      · next heq =>
        rw [hdigits, List.cons_append, List.cons.injEq] at heq
        rw [heq.1] at hc
        cases hc
      · next heq =>
        rw [hdigits, List.cons_append, List.cons.injEq] at heq
        rw [heq.1] at hc
        cases hc
      · simp only [hread, Option.map_some, habs]

/-- No blank is in front of a year. -/
theorem trimStart_yearText (year : Int) (rest : List Char) :
    Text.trimStart ((yearText year).toList ++ rest) = (yearText year).toList ++ rest := by
  rw [toList_yearText]
  unfold yearSign
  split_ifs
  · exact List.dropWhile_cons_of_neg (by decide)
  · exact List.dropWhile_cons_of_neg (by decide)
  · rw [List.nil_append, trimStart_padded]

/-! ## Items -/

section Items

variable {f : Fields} {items : Pattern} {n : Nat} {rest : List Char}

theorem readFrom?_cons {item : Item} {f' : Fields} {s : List Char} (h : item.read? f s = some (f', rest)) :
    Pattern.readFrom? f (item :: items) s = Pattern.readFrom? f' items rest := by
  rw [Pattern.readFrom?, h]
  rfl

theorem readFrom?_mark (c : Char) :
    Pattern.readFrom? f (.mark c :: items) (c :: rest) = Pattern.readFrom? f items rest :=
  readFrom?_cons (if_pos rfl)

/-- An item that takes two digits reads any number below a hundred. -/
theorem readFrom?_two {item : Item} (set : Nat → Fields → Fields)
    (hitem : ∀ s, item.read? f s = (digitsUpTo? 2 (Text.trimStart s)).map fun p => (set p.1 f, p.2)) (hn : n < 100) :
    Pattern.readFrom? f (item :: items) ((padded 2 n).toList ++ rest) = Pattern.readFrom? (set n f) items rest := by
  apply readFrom?_cons
  rw [hitem, trimStart_padded, digitsUpTo?_padded (by decide) hn, Option.map_some]

/-- A year is read up to the hyphen behind it. -/
theorem readFrom?_year (year : Int) :
    Pattern.readFrom? f (.year :: items) ((yearText year).toList ++ '-' :: rest) =
      Pattern.readFrom? { f with year } items ('-' :: rest) := by
  apply readFrom?_cons
  rw [Item.read?, trimStart_yearText, year?_yearText, Option.map_some]

/-- A date is read up to its end. -/
theorem readFrom?_date (d : Date) :
    Pattern.readFrom? f (datePattern ++ items) (d.text.toList ++ rest) =
      Pattern.readFrom? { f with year := d.year, month := d.month, day := d.day } items rest := by
  have hmonth : d.month < 100 := Nat.lt_of_le_of_lt d.month_le (by decide)
  have hday : d.day < 100 := Nat.lt_of_le_of_lt d.day_le (by decide)
  have htext : d.text.toList ++ rest =
      (yearText d.year).toList ++ '-' :: ((padded 2 d.month).toList ++ '-' :: ((padded 2 d.day).toList ++ rest)) := by
    have hhyphen : "-".toList = ['-'] := rfl
    simp only [Date.text, String.toList_append, hhyphen, List.append_assoc, List.cons_append, List.nil_append]
  rw [htext, datePattern, List.cons_append, readFrom?_year, List.cons_append, readFrom?_mark, List.cons_append,
    readFrom?_two (fun n f => { f with month := n }) (fun _ => rfl) hmonth, List.cons_append, readFrom?_mark,
    List.cons_append, readFrom?_two (fun n f => { f with day := n }) (fun _ => rfl) hday, List.nil_append]

/-- A fraction is read up to what is neither a digit nor a point, or no fraction where there is none. -/
theorem read?_fraction (hf : f.nanos = 0) (hn : n < 1000000000)
    (hstop : ∀ c ∈ rest.head?, c.isDigit = false ∧ c ≠ '.') :
    Item.read? .fraction f ((Time.fractionText n).toList ++ rest) = some ({ f with nanos := n }, rest) := by
  rcases Time.fractionText_cases hn with ⟨rfl, htext⟩ | ⟨width, k, hwidth, hmost, hk, rfl, htext⟩
  · rw [htext, List.nil_append, ← hf]
    cases rest with
    | nil => rfl
    | cons c rest =>
      have hpoint : c ≠ '.' := (hstop c rfl).2
      simp only [Item.read?]
      split
      · next heq => exact absurd (List.cons.inj heq).1 hpoint
      · rfl
  · rw [htext, List.cons_append, Item.read?, nanos?_padded hwidth hmost hk fun c hc => (hstop c hc).1]
    rfl

/-- A time of day is read that ends a text. -/
theorem readFrom?_time (hf : f.nanos = 0) (t : Time) :
    Pattern.readFrom? f secondPattern t.text.toList =
      some { f with hour := t.hour, minute := t.minute, second := t.shownSecond, nanos := t.shownNanos } := by
  have hhour : t.hour < 100 := Nat.lt_trans t.hour_lt (by decide)
  have hminute : t.minute < 100 := Nat.lt_trans t.minute_lt (by decide)
  have htext : t.text.toList = (padded 2 t.hour).toList ++ ':' :: ((padded 2 t.minute).toList ++
      ':' :: ((padded 2 t.shownSecond).toList ++ (Time.fractionText t.shownNanos).toList)) := by
    have hcolon : ":".toList = [':'] := rfl
    simp only [Time.text, String.toList_append, hcolon, List.append_assoc, List.cons_append, List.nil_append]
  have hpattern : secondPattern = [.hour, .mark ':', .minute, .mark ':', .second, .fraction] := rfl
  rw [htext, hpattern, readFrom?_two (fun n f => { f with hour := n }) (fun _ => rfl) hhour, readFrom?_mark,
    readFrom?_two (fun n f => { f with minute := n }) (fun _ => rfl) hminute, readFrom?_mark,
    readFrom?_two (fun n f => { f with second := n }) (fun _ => rfl) t.shownSecond_lt]
  have hfraction := @read?_fraction { f with hour := t.hour, minute := t.minute, second := t.shownSecond }
    t.shownNanos [] hf t.shownNanos_lt (by rintro c ⟨⟩)
  rw [List.append_nil] at hfraction
  rw [readFrom?_cons hfraction]
  rfl

end Items

end Calendar

open Calendar

/-! ## Texts -/

/-- A date is read back from its text. -/
theorem Date.read?_text (d : Date) : Date.read? d.text.toList = some d := by
  have hread := @readFrom?_date .blank [] [] d
  rw [List.append_nil, List.append_nil] at hread
  rw [Date.read?, Pattern.read?, hread]
  exact d.of?_fields

/-- A time of day is read back from its text. -/
theorem Time.read?_text (t : Time) : Time.read? t.text.toList = some t := by
  have hread : (secondPattern.read? t.text.toList).bind Fields.time? = some t := by
    rw [Pattern.read?, readFrom?_time rfl]
    exact t.of?_shown
  rw [Time.read?, hread]
  rfl

/-- A date with a time is read back from its text. -/
theorem DateTime.read?_text (t : DateTime) : DateTime.read? t.text.toList = some t := by
  have htext : t.text.toList = t.date.text.toList ++ 'T' :: t.time.text.toList := by
    rw [DateTime.text, String.toList_append, String.toList_append, List.append_assoc]
    rfl
  have hread : (Pattern.read? (datePattern ++ .mark 'T' :: secondPattern) t.text.toList).bind ofFields? = some t := by
    rw [htext, Pattern.read?, readFrom?_date, readFrom?_mark, readFrom?_time rfl, Option.bind_some, ofFields?,
      Fields.date?, Date.of?_fields, Fields.time?, Time.of?_shown]
    rfl
  rw [DateTime.read?, localPatterns, List.findSome?_cons, hread]
  rfl

namespace DateTime

variable {t : DateTime}

/-- The parts of an instant in universal time are read, where its year has four digits. -/
theorem rfc3339Fields?_textUtc (hyear : 0 ≤ t.date.year ∧ t.date.year ≤ 9999) :
    rfc3339Fields? t.textUtc.toList = some
      { year := t.date.year, month := t.date.month, day := t.date.day, hour := t.time.hour, minute := t.time.minute
        second := t.time.shownSecond, nanos := t.time.shownNanos, offset := some 0 } := by
  have hsign : (Date.yearText t.date.year).toList = (Date.padded 4 t.date.year.natAbs).toList := by
    have hnone : Date.yearSign t.date.year = [] := by
      unfold Date.yearSign
      rw [if_neg (by omega), if_neg (by omega)]
    rw [Date.toList_yearText, hnone, List.nil_append]
  have htext : t.textUtc.toList =
      (Date.padded 4 t.date.year.natAbs).toList ++ '-' :: ((Date.padded 2 t.date.month).toList ++
        '-' :: ((Date.padded 2 t.date.day).toList ++ 'T' :: ((Date.padded 2 t.time.hour).toList ++
        ':' :: ((Date.padded 2 t.time.minute).toList ++ ':' :: ((Date.padded 2 t.time.shownSecond).toList ++
        ((Time.fractionText t.time.shownNanos).toList ++ ['+', '0', '0', ':', '0', '0'])))))) := by
    have hhyphen : "-".toList = ['-'] := rfl
    have hcolon : ":".toList = [':'] := rfl
    have hmark : "T".toList = ['T'] := rfl
    have hoffset : (offsetText 0).toList = ['+', '0', '0', ':', '0', '0'] := by decide +kernel
    simp only [textUtc, textWithOffset, text, Date.text, Time.text, String.toList_append, hsign, hhyphen, hcolon, hmark,
      hoffset, List.append_assoc, List.cons_append, List.nil_append]
  have hyear' := digitsExactly?_padded (show 0 < 4 by decide) (show t.date.year.natAbs < 10 ^ 4 by omega)
  have habs : (t.date.year.natAbs : Int) = t.date.year := by omega
  have htwo : ∀ {n : Nat}, n < 100 → ∀ rest : List Char,
      digitsExactly? 2 ((Date.padded 2 n).toList ++ rest) = some (n, rest) :=
    fun hn => digitsExactly?_padded (by decide) hn
  have hmonth := htwo (Nat.lt_of_le_of_lt t.date.month_le (by decide))
  have hday := htwo (Nat.lt_of_le_of_lt t.date.day_le (by decide))
  have hhour := htwo (Nat.lt_trans t.time.hour_lt (by decide))
  have hminute := htwo (Nat.lt_trans t.time.minute_lt (by decide))
  have hsecond := htwo t.time.shownSecond_lt
  have hmark : ∀ (c : Char) (rest : List Char), Item.read? (.mark c) .blank (c :: rest) = some (.blank, rest) :=
    fun c rest => if_pos rfl
  have hstop : ∀ c ∈ ['+', '0', '0', ':', '0', '0'].head?, c.isDigit = false ∧ c ≠ '.' := by
    rintro c ⟨⟩
    exact ⟨rfl, by decide⟩
  have hfraction := @read?_fraction .blank t.time.shownNanos _ rfl t.time.shownNanos_lt hstop
  have hoffset : strictOffset? ['+', '0', '0', ':', '0', '0'] = some (0, []) := by decide +kernel
  -- one field at a time, in the order the text has them
  rw [htext, rfc3339Fields?]
  simp only [hyear', hmark, Option.bind_eq_bind, Option.bind_some]
  simp only [hmonth, hmark, Option.bind_some]
  simp only [hday, Option.bind_some]
  simp only [hhour, colon?, Option.bind_some]
  simp only [hminute, Option.bind_some]
  simp only [hsecond, Option.bind_some]
  simp only [hfraction, Option.bind_some]
  simp only [hoffset, Option.bind_some, List.isEmpty_nil, ↓reduceIte]
  rw [habs]

/-- An instant in universal time is read back from its text, where its year has four digits. -/
theorem readUtc?_textUtc (hyear : 0 ≤ t.date.year ∧ t.date.year ≤ 9999) : readUtc? t.textUtc.toList = some t := by
  have hread : ofRfc3339? t.textUtc.toList = some t := by
    rw [ofRfc3339?, rfc3339Fields?_textUtc hyear, Option.bind_some, instantOfFields?, ofFields?, Fields.date?,
      Date.of?_fields, Fields.time?, Time.of?_shown]
    exact addMinutes?_zero t
  rw [readUtc?, hread]
  rfl

end DateTime

end RestTables
