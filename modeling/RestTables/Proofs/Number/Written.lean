import RestTables.Json.Printer
import RestTables.Proofs.Number.Literal
import RestTables.Proofs.Number.Shortest

/-
Module: RestTables.Proofs.Number.Written
Purpose: The texts of numbers tell them apart. The digits of a double are read back as the number that they are, however
  they are laid out, and a whole number is never written like a double.
Main exports: Number.IsWritten, Layout.isWritten_render, Binary64.text?_inj, Json.Number.text_inj
-/

namespace RestTables

namespace Number

variable {whole fraction s : List Char} {q : ℚ}

/-- A number in digits: a whole part, and behind it a point with more digits, a power of ten, or both. -/
inductive IsWritten (q : ℚ) : List Char → Prop where
  | plain {whole fraction : List Char} (ne_nil : whole ≠ []) (digits : ∀ c ∈ whole ++ fraction, c.isDigit = true)
      (value : (Nat.ofDigitChars 10 (whole ++ fraction) 0 : ℚ) * 10 ^ (0 - fraction.length : Int) = q) :
      IsWritten q (whole ++ '.' :: fraction)
  | power {whole point fraction : List Char} {top : Int} (ne_nil : whole ≠ [])
      (digits : ∀ c ∈ whole ++ fraction, c.isDigit = true)
      (pointed : point = [] ∧ fraction = [] ∨ point = '.' :: fraction)
      (value : (Nat.ofDigitChars 10 (whole ++ fraction) 0 : ℚ) * 10 ^ (top - fraction.length : Int) = q) :
      IsWritten q (whole ++ (point ++ 'e' :: (if top < 0 then '-' else '+') :: Nat.toDigits 10 top.natAbs))

theorem takeSign_cons (top : Int) (s : List Char) :
    takeSign ((if top < 0 then '-' else '+') :: s) = (decide (top < 0), s) := by
  split
  · next hneg => rw [takeSign, decide_eq_true hneg]
  · next hnonneg => rw [takeSign, decide_eq_false hnonneg]

theorem isEmpty_eq_false {whole : List Char} (h : whole ≠ []) : whole.isEmpty = false := by
  rwa [Bool.eq_false_iff, Ne, List.isEmpty_iff]

/-- A number with a point only is read back. -/
theorem readScientific?_plain (ne_nil : whole ≠ []) (digits : ∀ c ∈ whole ++ fraction, c.isDigit = true) :
    readScientific? (whole ++ '.' :: fraction) =
      some (Nat.ofDigitChars 10 (whole ++ fraction) 0, 0 - (fraction.length : Int)) := by
  have hwhole : ∀ c ∈ whole, c.isDigit = true := fun c hc => digits c (List.mem_append_left _ hc)
  have hfraction : ∀ c ∈ fraction, c.isDigit = true := fun c hc => digits c (List.mem_append_right _ hc)
  have hpoint : ∀ c ∈ ('.' :: fraction).head?, c.isDigit = false := by
    rintro c ⟨⟩
    rfl
  have htake := @takeWhile_digits fraction [] hfraction nofun
  have hdrop := @dropWhile_digits fraction [] hfraction nofun
  rw [List.append_nil] at htake hdrop
  simp only [readScientific?, takeWhile_digits hwhole hpoint, dropWhile_digits hwhole hpoint, htake, hdrop,
    digitsFrom_eq_ofDigitChars digits, isEmpty_eq_false ne_nil, Bool.false_and, Bool.false_eq_true, ↓reduceIte]
  rfl

/-- So is one with a power, with or without a point. -/
theorem readScientific?_power {point : List Char} {top : Int} (ne_nil : whole ≠ [])
    (digits : ∀ c ∈ whole ++ fraction, c.isDigit = true)
    (pointed : point = [] ∧ fraction = [] ∨ point = '.' :: fraction) :
    readScientific? (whole ++ (point ++ 'e' :: (if top < 0 then '-' else '+') :: Nat.toDigits 10 top.natAbs)) =
      some (Nat.ofDigitChars 10 (whole ++ fraction) 0, top - (fraction.length : Int)) := by
  have hwhole : ∀ c ∈ whole, c.isDigit = true := fun c hc => digits c (List.mem_append_left _ hc)
  have hfraction : ∀ c ∈ fraction, c.isDigit = true := fun c hc => digits c (List.mem_append_right _ hc)
  have hmark : ∀ s : List Char, ∀ c ∈ ('e' :: s).head?, c.isDigit = false := by
    rintro s c ⟨⟩
    rfl
  have hpoint : ∀ s : List Char, ∀ c ∈ ('.' :: s).head?, c.isDigit = false := by
    rintro s c ⟨⟩
    rfl
  have hvalue : (if top < 0 then -|top| else |top|) = top := by
    split
    · next hneg => rw [abs_of_neg hneg, neg_neg]
    · next hnonneg => exact abs_of_nonneg (not_lt.mp hnonneg)
  rw [← digitsFrom_eq_ofDigitChars digits]
  rcases pointed with ⟨rfl, rfl⟩ | rfl
  · simp only [readScientific?, List.nil_append, takeWhile_digits hwhole (hmark _), dropWhile_digits hwhole (hmark _)]
    simp [isEmpty_eq_false ne_nil, takeSign_cons, digits?_toDigits, hvalue]
  · simp only [readScientific?, List.cons_append, takeWhile_digits hwhole (hpoint _),
      dropWhile_digits hwhole (hpoint _), takeWhile_digits hfraction (hmark _), dropWhile_digits hfraction (hmark _)]
    simp [isEmpty_eq_false ne_nil, takeSign_cons, digits?_toDigits, hvalue]

/-- A number in digits is read back. -/
theorem exists_readScientific? (h : IsWritten q s) :
    ∃ c e, readScientific? s = some (c, e) ∧ (c * 10 ^ e : ℚ) = q := by
  cases h with
  | plain ne_nil digits value => exact ⟨_, _, readScientific?_plain ne_nil digits, value⟩
  | power ne_nil digits pointed value => exact ⟨_, _, readScientific?_power ne_nil digits pointed, value⟩

/-! ## Layouts -/

section Layouts

variable (d : Digits)

theorem isDigit_of_mem_zeros {n : Nat} {c : Char} (h : c ∈ List.replicate n '0') : c.isDigit = true := by
  rw [List.eq_of_mem_replicate h]
  rfl

/-- Zeros behind the digits, up to the point. -/
theorem isWritten_whole (h : 0 ≤ d.exponent) :
    IsWritten d.value ((Nat.toDigits 10 d.coefficient ++ List.replicate d.exponent.toNat '0') ++ '.' :: ['0']) := by
  refine .plain (by simp [Nat.toDigits_ne_nil]) ?_ ?_
  · intro c hc
    rcases List.mem_append.mp hc with hc | hc
    · rcases List.mem_append.mp hc with hc | hc
      · exact isDigit_of_mem_toDigits hc
      · exact isDigit_of_mem_zeros hc
    · exact isDigit_of_mem_zeros (n := 1) hc
  · obtain ⟨n, hn⟩ := Int.eq_ofNat_of_zero_le h
    have hlast : ∀ k, Nat.ofDigitChars 10 ['0'] k = 10 * k := fun k => Nat.ofDigitChars_replicate_zero (n := 1)
    rw [Nat.ofDigitChars_append, Nat.ofDigitChars_append, Nat.ofDigitChars_ten_toDigits,
      Nat.ofDigitChars_replicate_zero, hlast, Digits.value, hn, Int.toNat_natCast, zpow_natCast]
    push_cast
    norm_num
    ring

/-- Digits that are cut in two behind the first one or later. -/
theorem cut_toDigits {i : Nat} (hi : 0 < i) :
    (Nat.toDigits 10 d.coefficient).take i ≠ [] ∧
      ∀ c ∈ (Nat.toDigits 10 d.coefficient).take i ++ (Nat.toDigits 10 d.coefficient).drop i, c.isDigit = true := by
  have hpositive : 0 < (Nat.toDigits 10 d.coefficient).length := Nat.length_toDigits_pos
  constructor
  · rw [← List.length_pos_iff, List.length_take]
    omega
  · intro c hc
    rw [List.take_append_drop] at hc
    exact isDigit_of_mem_toDigits hc

/-- The point among the digits. -/
theorem isWritten_cut {i n : Nat} (hi : 0 < i) (hn : i + n = (Nat.toDigits 10 d.coefficient).length)
    (h : d.exponent = -n) :
    IsWritten d.value ((Nat.toDigits 10 d.coefficient).take i ++ '.' :: (Nat.toDigits 10 d.coefficient).drop i) := by
  obtain ⟨hne, hdigits⟩ := cut_toDigits d hi
  refine .plain hne hdigits ?_
  have hlength : (0 - ((Nat.toDigits 10 d.coefficient).drop i).length : Int) = -n := by
    rw [List.length_drop]
    omega
  rw [List.take_append_drop, Nat.ofDigitChars_ten_toDigits, hlength, Digits.value, h]

/-- Zeros in front of the digits. -/
theorem isWritten_small {n : Nat} (h : d.exponent = -(n + (Nat.toDigits 10 d.coefficient).length : Nat)) :
    IsWritten d.value (['0'] ++ '.' :: (List.replicate n '0' ++ Nat.toDigits 10 d.coefficient)) := by
  refine .plain (by decide) ?_ ?_
  · intro c hc
    rcases List.mem_append.mp hc with hc | hc
    · exact isDigit_of_mem_zeros (n := 1) hc
    · rcases List.mem_append.mp hc with hc | hc
      · exact isDigit_of_mem_zeros hc
      · exact isDigit_of_mem_toDigits hc
  · have hfirst : Nat.ofDigitChars 10 ['0'] 0 = 0 := rfl
    rw [Nat.ofDigitChars_append, Nat.ofDigitChars_append, hfirst, Nat.ofDigitChars_replicate_zero, Nat.mul_zero,
      Nat.ofDigitChars_ten_toDigits, List.length_append, List.length_replicate, Digits.value, h, zero_sub]

/-- One digit in front of the point, and a power. -/
theorem isWritten_power {top : Int} (h : d.exponent = top + 1 - (Nat.toDigits 10 d.coefficient).length) :
    IsWritten d.value ((Nat.toDigits 10 d.coefficient).take 1 ++
      ((if ((Nat.toDigits 10 d.coefficient).drop 1).isEmpty then []
        else '.' :: (Nat.toDigits 10 d.coefficient).drop 1) ++
        'e' :: (if top < 0 then '-' else '+') :: Nat.toDigits 10 top.natAbs)) := by
  obtain ⟨hne, hdigits⟩ := cut_toDigits d Nat.one_pos
  have hpositive : 0 < (Nat.toDigits 10 d.coefficient).length := Nat.length_toDigits_pos
  refine @IsWritten.power _ _ _ ((Nat.toDigits 10 d.coefficient).drop 1) _ hne hdigits ?_ ?_
  · split
    · next hempty => exact .inl ⟨rfl, List.isEmpty_iff.mp hempty⟩
    · exact .inr rfl
  · have hlength : (top - ((Nat.toDigits 10 d.coefficient).drop 1).length : Int) = d.exponent := by
      rw [List.length_drop]
      omega
    rw [List.take_append_drop, Nat.ofDigitChars_ten_toDigits, hlength, Digits.value]

/-- Digits are written as the number that they are, in whatever layout. -/
theorem isWritten_render (l : Binary64.Layout) : IsWritten d.value (l.render d).toList := by
  have hlist : (toString d.coefficient).toList = Nat.toDigits 10 d.coefficient := Nat.toList_repr
  have hlength : (toString d.coefficient).length = (Nat.toDigits 10 d.coefficient).length := by
    rw [← String.length_toList, hlist]
  unfold Binary64.Layout.render
  dsimp only
  rw [hlength]
  generalize htop : d.exponent + (Nat.toDigits 10 d.coefficient).length - 1 = top
  -- Three layouts have no exponent: all digits before the point, on both sides of it, all behind it.
  split
  · split
    · next hwhole =>
      simp only [String.toList_append, hlist, String.toList_ofList]
      exact isWritten_whole d hwhole
    · split
      · next hneg hcut =>
        simp only [String.toList_append, hlist, String.toList_ofList, List.append_assoc]
        exact isWritten_cut d (i := top.toNat + 1) (n := (-d.exponent).toNat) (by omega) (by omega) (by omega)
      · next hneg hsmall =>
        simp only [String.toList_append, hlist, String.toList_ofList, List.append_assoc]
        exact isWritten_small d (n := (-top - 1).toNat) (by omega)
  · have hpower := isWritten_power d (show d.exponent = top + 1 - _ by omega)
    have htext : ∀ a b c e : String, (a ++ b ++ "e" ++ c ++ e).toList =
        a.toList ++ (b.toList ++ 'e' :: (c.toList ++ e.toList)) := by
      intro a b c e
      simp
    -- A single digit is written without a point.
    have hpoint : (if ((Nat.toDigits 10 d.coefficient).drop 1).isEmpty then ""
        else "." ++ String.ofList ((Nat.toDigits 10 d.coefficient).drop 1)).toList =
        if ((Nat.toDigits 10 d.coefficient).drop 1).isEmpty then []
        else '.' :: (Nat.toDigits 10 d.coefficient).drop 1 := by
      split
      · rfl
      · simp only [String.toList_append, String.toList_ofList]
        rfl
    have hsign : (if top < 0 then "-" else "+").toList = [if top < 0 then '-' else '+'] := by
      split <;> rfl
    have hnumber : (toString top.natAbs).toList = Nat.toDigits 10 top.natAbs := Nat.toList_repr
    rw [hlist, htext, hpoint, hsign, hnumber, String.toList_ofList]
    exact hpower

end Layouts

/-! ## Telling numbers apart -/

variable {q' : ℚ}

/-- A text writes one number. -/
theorem IsWritten.unique (h : IsWritten q s) (h' : IsWritten q' s) : q = q' := by
  obtain ⟨c, e, hread, rfl⟩ := exists_readScientific? h
  obtain ⟨c', e', hread', rfl⟩ := exists_readScientific? h'
  rw [hread] at hread'
  cases hread'
  rfl

/-- It begins with a digit. -/
theorem IsWritten.exists_cons (h : IsWritten q s) : ∃ c rest, s = c :: rest ∧ c.isDigit = true := by
  have hfirst : ∀ {whole fraction rest : List Char}, whole ≠ [] → (∀ c ∈ whole ++ fraction, c.isDigit = true) →
      ∃ c rest', whole ++ rest = c :: rest' ∧ c.isDigit = true := by
    intro whole fraction rest ne_nil digits
    cases whole with
    | nil => exact absurd rfl ne_nil
    | cons c whole => exact ⟨c, whole ++ rest, rfl, digits c List.mem_cons_self⟩
  cases h with
  | plain ne_nil digits => exact hfirst ne_nil digits
  | power ne_nil digits => exact hfirst ne_nil digits

/-- It has a point or the mark of a power. -/
theorem IsWritten.exists_not_isDigit (h : IsWritten q s) : ∃ c ∈ s, c.isDigit = false := by
  cases h with
  | plain => exact ⟨'.', by simp, rfl⟩
  | power => exact ⟨'e', by simp, rfl⟩

/-- The characters that numbers are written with. -/
def isNumeral (c : Char) : Bool := c.isDigit || ['.', 'e', '+', '-'].contains c

theorem isNumeral_of_isDigit {c : Char} (h : c.isDigit = true) : isNumeral c = true := by
  rw [isNumeral, h, Bool.true_or]

theorem IsWritten.isNumeral_of_mem (h : IsWritten q s) {c : Char} (hc : c ∈ s) : isNumeral c = true := by
  cases h with
  | plain ne_nil digits value =>
    rcases List.mem_append.mp hc with hc | hc
    · exact isNumeral_of_isDigit (digits c (List.mem_append_left _ hc))
    · rcases List.mem_cons.mp hc with rfl | hc
      · rfl
      · exact isNumeral_of_isDigit (digits c (List.mem_append_right _ hc))
  | @power whole point fraction top ne_nil digits pointed value =>
    rcases List.mem_append.mp hc with hc | hc
    · exact isNumeral_of_isDigit (digits c (List.mem_append_left _ hc))
    · rcases List.mem_append.mp hc with hc | hc
      · rcases pointed with ⟨rfl, -⟩ | rfl
        · cases hc
        · rcases List.mem_cons.mp hc with rfl | hc
          · rfl
          · exact isNumeral_of_isDigit (digits c (List.mem_append_right _ hc))
      · rcases List.mem_cons.mp hc with rfl | hc
        · rfl
        · rcases List.mem_cons.mp hc with rfl | hc
          · split <;> rfl
          · exact isNumeral_of_isDigit (isDigit_of_mem_toDigits hc)

end Number

namespace Binary64

variable {x y : Binary64} {t : String}

/-- The text of a double is the digits of a number that rounds to it, behind a sign. -/
theorem exists_of_text? (h : x.text? = some t) :
    ∃ negative m e s, x.view = .finite negative m e ∧ t.toList = (if negative then ['-'] else []) ++ s ∧
      Number.IsWritten (shortest m e).value s := by
  unfold text? at h
  split at h
  · next negative m e hview =>
    cases h
    refine ⟨negative, m, e, _, hview, ?_, Number.isWritten_render _ layout⟩
    rw [String.toList_append]
    cases negative <;> rfl
  · cases h

/-- Different doubles have different texts. -/
theorem text?_inj (hx : x.text? = some t) (hy : y.text? = some t) : x = y := by
  obtain ⟨negative, m, e, s, hview, htext, hwritten⟩ := exists_of_text? hx
  obtain ⟨negative', m', e', s', hview', htext', hwritten'⟩ := exists_of_text? hy
  obtain ⟨c, rest, rfl, hc⟩ := hwritten.exists_cons
  obtain ⟨c', rest', rfl, hc'⟩ := hwritten'.exists_cons
  rw [htext] at htext'
  -- No digit is a minus sign, so the signs agree.
  obtain ⟨rfl, hsame⟩ : negative = negative' ∧ c :: rest = c' :: rest' := by
    cases negative <;> cases negative' <;>
      simp only [↓reduceIte, Bool.false_eq_true, List.nil_append, List.cons_append, List.cons.injEq, true_and] at htext'
    · exact ⟨rfl, by rw [htext'.1, htext'.2]⟩
    · rw [htext'.1] at hc
      cases hc
    · rw [← htext'.1] at hc'
      cases hc'
    · exact ⟨rfl, by rw [htext'.1, htext'.2]⟩
  rw [← hsame] at hwritten'
  -- The number that is written lies in the rounding intervals of both, and these have no number in common.
  have hcontains := contains_shortest (isCanonical_of_view hview)
  have hcontains' := contains_shortest (isCanonical_of_view hview')
  rw [← hwritten.unique hwritten'] at hcontains'
  obtain ⟨rfl, rfl⟩ := RoundingInterval.eq_of_contains (isCanonical_of_view hview) (isCanonical_of_view hview')
    hcontains hcontains'
  exact eq_of_view hview hview'

theorem exists_text? (h : x.isFinite = true) : ∃ t, x.text? = some t := by
  unfold isFinite at h
  unfold text?
  revert h
  cases x.view with
  | finite => exact fun _ => ⟨_, rfl⟩
  | nan | infinite => nofun

end Binary64

namespace Json.Number

open RestTables.Number

/-- The number has a text of its own: it is no infinity and not not-a-number. -/
def IsPrintable : Json.Number → Prop
  | .int _ => True
  | .float x => x.isFinite = true

variable {n k : Json.Number}

/-- A whole number has no point. -/
theorem text_int_ne {i : Int} {x : Binary64} {t : String} (h : x.text? = some t) : toString i ≠ t := by
  rintro rfl
  obtain ⟨negative, m, e, s, -, htext, hwritten⟩ := Binary64.exists_of_text? h
  obtain ⟨c, hc, hdigit⟩ := hwritten.exists_not_isDigit
  obtain ⟨first, rest, rfl, hfirst⟩ := hwritten.exists_cons
  -- All of the text of a whole number are digits, but for a sign in front.
  cases i with
  | ofNat a =>
    rw [toList_toString_ofNat] at htext
    rw [isDigit_of_mem_toDigits (htext ▸ List.mem_append_right _ hc)] at hdigit
    cases hdigit
  | negSucc a =>
    rw [toList_toString_negSucc] at htext
    cases negative with
    | false =>
      rw [(List.cons.inj htext).1.symm] at hfirst
      cases hfirst
    | true =>
      have hdigits : Nat.toDigits 10 (a + 1) = first :: rest := (List.cons.inj htext).2
      rw [isDigit_of_mem_toDigits (hdigits ▸ hc)] at hdigit
      cases hdigit

theorem text_inj (hn : n.IsPrintable) (hk : k.IsPrintable) (h : n.text = k.text) : n = k := by
  cases n with
  | int i =>
    cases k with
    | int j => rw [toList_toString_inj (congrArg String.toList h)]
    | float y =>
      obtain ⟨t, ht⟩ := Binary64.exists_text? hk
      rw [text, text, ht, Option.getD_some] at h
      exact absurd h (text_int_ne ht)
  | float x =>
    obtain ⟨t, ht⟩ := Binary64.exists_text? hn
    cases k with
    | int j =>
      rw [text, text, ht, Option.getD_some] at h
      exact absurd h.symm (text_int_ne ht)
    | float y =>
      obtain ⟨t', ht'⟩ := Binary64.exists_text? hk
      rw [text, text, ht, ht', Option.getD_some, Option.getD_some] at h
      rw [Binary64.text?_inj ht (h ▸ ht')]

theorem toList_text_ne_nil (hn : n.IsPrintable) : n.text.toList ≠ [] := by
  cases n with
  | int i =>
    rw [text]
    cases i with
    | ofNat a =>
      rw [toList_toString_ofNat]
      exact Nat.toDigits_ne_nil
    | negSucc a =>
      rw [toList_toString_negSucc]
      exact List.cons_ne_nil _ _
  | float x =>
    obtain ⟨t, ht⟩ := Binary64.exists_text? hn
    obtain ⟨negative, m, e, s, -, htext, hwritten⟩ := Binary64.exists_of_text? ht
    obtain ⟨c, rest, rfl, -⟩ := hwritten.exists_cons
    rw [text, ht, Option.getD_some, htext]
    exact List.append_ne_nil_of_right_ne_nil _ (List.cons_ne_nil _ _)

theorem isNumeral_of_mem_text (hn : n.IsPrintable) {c : Char} (hc : c ∈ n.text.toList) : isNumeral c = true := by
  cases n with
  | int i =>
    rw [text] at hc
    cases i with
    | ofNat a =>
      rw [toList_toString_ofNat] at hc
      exact isNumeral_of_isDigit (isDigit_of_mem_toDigits hc)
    | negSucc a =>
      rw [toList_toString_negSucc] at hc
      rcases List.mem_cons.mp hc with rfl | hc
      · rfl
      · exact isNumeral_of_isDigit (isDigit_of_mem_toDigits hc)
  | float x =>
    obtain ⟨t, ht⟩ := Binary64.exists_text? hn
    rw [text, ht, Option.getD_some] at hc
    obtain ⟨negative, m, e, s, -, htext, hwritten⟩ := Binary64.exists_of_text? ht
    rw [htext] at hc
    rcases List.mem_append.mp hc with hc | hc
    · cases negative with
      | false => cases hc
      | true =>
        obtain rfl := List.mem_singleton.mp hc
        rfl
    · exact hwritten.isNumeral_of_mem hc

end Json.Number

end RestTables
