import Mathlib.Algebra.Group.Nat.Defs
import Mathlib.Data.List.Basic
import RestTables.Calendar.Instant
import RestTables.Text.Affix

/-
Module: RestTables.Proofs.Calendar.Text
Purpose: No two dates, times of day, or dates with times have the same text. Their parts have fixed widths but for
  the year at the front and the fraction at the end, and each of these tells by its own form how it is read.
Main exports: Date.padded_inj, Date.text_inj, Time.text_inj, DateTime.text_inj
-/

namespace RestTables

namespace Date

/-! ## Numbers with zeros in front -/

section Padded

variable {width n m : Nat}

theorem toList_padded (width n : Nat) :
    (padded width n).toList = List.replicate (width - (Nat.toDigits 10 n).length) '0' ++ Nat.toDigits 10 n := by
  have hdigits : (toString n).toList = Nat.toDigits 10 n := Nat.toList_repr
  rw [padded, String.toList_ofList, hdigits]

theorem isDigit_of_mem_padded {c : Char} (h : c ∈ (padded width n).toList) : c.isDigit = true := by
  rw [toList_padded] at h
  rcases List.mem_append.mp h with hzero | hdigit
  · rw [List.eq_of_mem_replicate hzero]
    rfl
  · exact Nat.isDigit_of_mem_toDigits (by decide) (by decide) hdigit

/-- A number is read back, however many zeros stand in front of it. -/
theorem ofDigitChars_padded (width n : Nat) : Nat.ofDigitChars 10 (padded width n).toList 0 = n := by
  rw [toList_padded, Nat.ofDigitChars_append, Nat.ofDigitChars_replicate_zero, Nat.mul_zero,
    Nat.ofDigitChars_toDigits (by decide) (by decide)]

theorem padded_inj {width' : Nat} (h : (padded width n).toList = (padded width' m).toList) : n = m := by
  rw [← ofDigitChars_padded width n, h, ofDigitChars_padded]

theorem length_padded (hwidth : 0 < width) (h : n < 10 ^ width) : (padded width n).toList.length = width := by
  have hdigits : (Nat.toDigits 10 n).length ≤ width := (Nat.length_toDigits_le_iff (by decide) hwidth).mpr h
  rw [toList_padded, List.length_append, List.length_replicate]
  omega

end Padded

/-! ## Dates -/

/-- The sign in front of a year, which tells on which side of the years 0 to 9999 it is. -/
def yearSign (year : Int) : List Char := if year < 0 then ['-'] else if year > 9999 then ['+'] else []

theorem toList_yearText (year : Int) : (yearText year).toList = yearSign year ++ (padded 4 year.natAbs).toList := by
  unfold yearText yearSign
  split
  · rw [String.toList_append]
    rfl
  · split
    · rw [String.toList_append]
      rfl
    · rw [List.nil_append]

/-- The digits of a year are told from its sign. -/
theorem yearText_inj {y z : Int} (h : (yearText y).toList = (yearText z).toList) : y = z := by
  have hdigits : ∀ year, (yearText year).toList.filter Char.isDigit = (padded 4 year.natAbs).toList := by
    intro year
    have hsign : (yearSign year).filter Char.isDigit = [] := by
      unfold yearSign
      split_ifs <;> rfl
    rw [toList_yearText, List.filter_append, hsign, List.nil_append, List.filter_eq_self]
    exact fun c => isDigit_of_mem_padded
  have hsigns : ∀ year, (yearText year).toList.filter (!Char.isDigit ·) = yearSign year := by
    intro year
    have hpadded : (padded 4 year.natAbs).toList.filter (!Char.isDigit ·) = [] := by
      rw [List.filter_eq_nil_iff]
      exact fun c hc => by simp [isDigit_of_mem_padded hc]
    rw [toList_yearText, List.filter_append, hpadded, List.append_nil, List.filter_eq_self]
    unfold yearSign
    split_ifs <;> simp
  have habs : y.natAbs = z.natAbs := padded_inj (by rw [← hdigits y, h, hdigits z])
  have hsign : yearSign y = yearSign z := by rw [← hsigns y, h, hsigns z]
  unfold yearSign at hsign
  split_ifs at hsign <;> first | omega | cases hsign

theorem month_le (d : Date) : d.month ≤ 12 := by
  have hdays := d.exist
  by_contra hmonth
  have hnone : daysIn d.year d.month = 0 := by
    unfold daysIn
    split <;> omega
  omega

theorem day_le (d : Date) : d.day ≤ 31 := by
  have hdays := d.exist
  have hmost : daysIn d.year d.month ≤ 31 := by
    unfold daysIn
    split <;> first | omega | (split <;> omega)
  omega

/-- Month and day have two digits each, so the year is what stands in front of them. -/
theorem text_inj {d e : Date} (h : d.text.toList = e.text.toList) : d = e := by
  have htwo : ∀ n, n ≤ 31 → (padded 2 n).toList.length = 2 := fun n hn => length_padded (by decide) (by omega)
  have hmonth : ∀ d : Date, (padded 2 d.month).toList.length = 2 := fun d => htwo _ (Nat.le_trans d.month_le (by decide))
  have hday : ∀ d : Date, (padded 2 d.day).toList.length = 2 := fun d => htwo _ d.day_le
  simp only [text, String.toList_append] at h
  obtain ⟨hfront, hdays⟩ := List.append_inj' h (by rw [hday, hday])
  obtain ⟨hfront, -⟩ := List.append_inj' hfront rfl
  obtain ⟨hfront, hmonths⟩ := List.append_inj' hfront (by rw [hmonth, hmonth])
  obtain ⟨hyears, -⟩ := List.append_inj' hfront rfl
  have heq : some d = some e := by
    rw [← of?_fields d, ← of?_fields e, yearText_inj hyears, padded_inj hmonths, padded_inj hdays]
  exact Option.some.inj heq

theorem not_mem_padded {width n : Nat} {c : Char} (hc : c.isDigit = false) : c ∉ (padded width n).toList := by
  intro h
  rw [isDigit_of_mem_padded h] at hc
  cases hc

/-- A letter is no part of a date. -/
theorem not_mem_text (d : Date) : 'T' ∉ d.text.toList := by
  have hpadded : ∀ width n, 'T' ∉ (padded width n).toList := fun width n => not_mem_padded rfl
  have hsign : 'T' ∉ yearSign d.year := by
    unfold yearSign
    split_ifs <;> decide
  simp [text, toList_yearText, hpadded, hsign]

end Date

namespace Time

/-! ## Times of day -/

open Date

/-- A fraction is empty, or a point and some digits of which the rest would be zeros. -/
theorem fractionText_cases {n : Nat} (hn : n < 1000000000) :
    (n = 0 ∧ (fractionText n).toList = []) ∨
    ∃ width k, 0 < width ∧ width ≤ 9 ∧ k < 10 ^ width ∧ n = k * 10 ^ (9 - width) ∧
      (fractionText n).toList = '.' :: (padded width k).toList := by
  have hpoint : ∀ width k, ("." ++ padded width k).toList = '.' :: (padded width k).toList := by
    intro width k
    rw [String.toList_append]
    rfl
  unfold fractionText
  split_ifs with hzero hmillis hmicros
  · exact .inl ⟨hzero, rfl⟩
  · exact .inr ⟨3, n / 1000000, by decide, by decide, by omega, by omega, hpoint _ _⟩
  · exact .inr ⟨6, n / 1000, by decide, by decide, by omega, by omega, hpoint _ _⟩
  · exact .inr ⟨9, n, by decide, by decide, by omega, by omega, hpoint _ _⟩

/-- A fraction is told by its width and its digits. -/
theorem fractionText_inj {n m : Nat} (hn : n < 1000000000) (hm : m < 1000000000)
    (h : (fractionText n).toList = (fractionText m).toList) : n = m := by
  rcases fractionText_cases hn with ⟨rfl, htext⟩ | ⟨width, k, hwidth, -, hk, rfl, htext⟩
  · rcases fractionText_cases hm with ⟨rfl, -⟩ | ⟨width', l, -, -, -, -, htext'⟩
    · rfl
    · rw [htext, htext'] at h
      cases h
  · rcases fractionText_cases hm with ⟨-, htext'⟩ | ⟨width', l, hwidth', -, hl, rfl, htext'⟩
    · rw [htext, htext'] at h
      cases h
    · rw [htext, htext', List.cons.injEq] at h
      have hsame : width = width' := by rw [← length_padded hwidth hk, h.2, length_padded hwidth' hl]
      rw [padded_inj h.2, hsame]

theorem shownNanos_lt (t : Time) : t.shownNanos < 1000000000 := by
  have hnanos := t.nanos_lt
  unfold shownNanos
  split <;> omega

theorem shownSecond_lt (t : Time) : t.shownSecond < 100 := by
  have hsecond := t.second_lt
  unfold shownSecond
  split <;> omega

/-- Hours, minutes and seconds have two digits each, and the fraction is what stands behind them. -/
theorem text_inj {s t : Time} (h : s.text.toList = t.text.toList) : s = t := by
  have htwo : ∀ n, n < 100 → (padded 2 n).toList.length = 2 := fun n hn => length_padded (by decide) hn
  have hhour : ∀ t : Time, (padded 2 t.hour).toList.length = 2 := fun t => htwo _ (by have := t.hour_lt; omega)
  have hminute : ∀ t : Time, (padded 2 t.minute).toList.length = 2 := fun t => htwo _ (by have := t.minute_lt; omega)
  have hsecond : ∀ t : Time, (padded 2 t.shownSecond).toList.length = 2 := fun t => htwo _ t.shownSecond_lt
  simp only [text, String.toList_append, List.append_assoc] at h
  obtain ⟨hhours, h⟩ := List.append_inj h (by rw [hhour, hhour])
  obtain ⟨-, h⟩ := List.append_inj h rfl
  obtain ⟨hminutes, h⟩ := List.append_inj h (by rw [hminute, hminute])
  obtain ⟨-, h⟩ := List.append_inj h rfl
  obtain ⟨hseconds, hfractions⟩ := List.append_inj h (by rw [hsecond, hsecond])
  have heq : some s = some t := by
    rw [← of?_shown s, ← of?_shown t, padded_inj hhours, padded_inj hminutes, padded_inj hseconds,
      fractionText_inj s.shownNanos_lt t.shownNanos_lt hfractions]
  exact Option.some.inj heq

end Time

/-- No `T` is in the date, so the first one ends it. -/
theorem DateTime.text_inj {t u : DateTime} (h : t.text.toList = u.text.toList) : t = u := by
  have hcut : ∀ t : DateTime, Text.cut? 'T' t.text.toList = some (t.date.text.toList, t.time.text.toList) := by
    intro t
    refine Text.cut?_eq_some_iff.mpr ⟨?_, t.date.not_mem_text⟩
    rw [text, String.toList_append, String.toList_append, List.append_assoc]
    rfl
  have hparts := hcut t
  rw [h, hcut u, Option.some.injEq, Prod.mk.injEq] at hparts
  have hdate : t.date = u.date := Date.text_inj hparts.1.symm
  have htime : t.time = u.time := Time.text_inj hparts.2.symm
  cases t
  cases u
  cases hdate
  cases htime
  rfl

end RestTables
