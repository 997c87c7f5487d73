import Mathlib.Data.List.Basic
import RestTables.Number.Literal
import RestTables.Text.Blank

/-
Module: RestTables.Proofs.Number.Literal
Purpose: Whole numbers are read back from the digits that write them, with a sign in front of those below zero.
Main exports: Text.takeWhile_append_of_stop, Number.isDigit_eq, Number.takeWhile_digits,
  Number.digitsFrom_eq_ofDigitChars, Number.readNat?_toString, Number.toList_toString_inj, Number.readInt?_toString
-/

namespace RestTables

/-- No digit is a blank. -/
theorem Text.isBlank_of_isDigit {c : Char} (h : c.isDigit = true) : isBlank c = false := by
  have hrange : 48 ≤ c.toNat ∧ c.toNat ≤ 57 := Char.isDigit_iff_toNat.mp h
  simp only [isBlank, Bool.or_eq_false_iff, Bool.and_eq_false_iff, decide_eq_false_iff_not, beq_eq_false_iff_ne]
  omega

section Stop

variable {p : Char → Bool} {front rest : List Char} (hfront : ∀ c ∈ front, p c = true)
  (hstop : ∀ c ∈ rest.head?, p c = false)

include hfront hstop

/-- What is in front of the first character that stops it is taken. -/
theorem Text.takeWhile_append_of_stop : (front ++ rest).takeWhile p = front := by
  have hnone : rest.takeWhile p = [] := by
    cases rest with
    | nil => rfl
    | cons c rest => rw [List.takeWhile_cons, hstop c rfl, if_neg Bool.false_ne_true]
  rw [List.takeWhile_append_of_pos hfront, hnone, List.append_nil]

/-- And the rest begins with that character. -/
theorem Text.dropWhile_append_of_stop : (front ++ rest).dropWhile p = rest := by
  have hboth := List.takeWhile_append_dropWhile (p := p) (l := front ++ rest)
  rw [Text.takeWhile_append_of_stop hfront hstop] at hboth
  exact List.append_cancel_left hboth

end Stop

namespace Number

theorem digit?_eq_some {c : Char} (h : c.isDigit = true) : digit? c = some (c.toNat - '0'.toNat) := by
  have hrange : '0' ≤ c ∧ c ≤ '9' := by
    rw [Char.isDigit_iff_toNat] at h
    exact h
  rw [digit?, if_pos hrange]
  rfl

/-- The digits that are read are those that are written. -/
theorem isDigit_eq (c : Char) : isDigit c = c.isDigit := by
  rw [Bool.eq_iff_iff, isDigit, digit?, Char.isDigit_iff_toNat]
  constructor
  · intro h
    split at h
    · assumption
    · cases h
  · intro h
    have hrange : '0' ≤ c ∧ c ≤ '9' := h
    rw [if_pos hrange, Option.isSome_some]

section Digits

variable {digits rest : List Char} (hdigits : ∀ c ∈ digits, c.isDigit = true)
  (hstop : ∀ c ∈ rest.head?, c.isDigit = false)

include hdigits hstop

/-- The digits in front are those up to the first character that is none. -/
theorem takeWhile_digits : (digits ++ rest).takeWhile isDigit = digits := by
  rw [funext isDigit_eq]
  exact Text.takeWhile_append_of_stop hdigits hstop

/-- And what follows them begins with that one. -/
theorem dropWhile_digits : (digits ++ rest).dropWhile isDigit = rest := by
  rw [funext isDigit_eq]
  exact Text.dropWhile_append_of_stop hdigits hstop

end Digits

theorem digitsFrom_eq_ofDigitChars {digits : List Char} (h : ∀ c ∈ digits, c.isDigit = true) (start : Nat) :
    digitsFrom start digits = Nat.ofDigitChars 10 digits start := by
  induction digits generalizing start with
  | nil => rfl
  | cons c digits ih =>
    obtain ⟨hc, hdigits⟩ := List.forall_mem_cons.mp h
    have hstep : digitsFrom start (c :: digits) = digitsFrom (start * 10 + (digit? c).getD 0) digits := rfl
    rw [hstep, ih hdigits, Nat.ofDigitChars_cons, digit?_eq_some hc, Option.getD_some, Nat.mul_comm]

theorem isDigit_of_mem_toDigits {n : Nat} {c : Char} (h : c ∈ Nat.toDigits 10 n) : c.isDigit = true :=
  Nat.isDigit_of_mem_toDigits (by decide) (by decide) h

theorem toDigits_inj {n m : Nat} (h : Nat.toDigits 10 n = Nat.toDigits 10 m) : n = m := by
  rw [← Nat.ofDigitChars_ten_toDigits (n := n), h, Nat.ofDigitChars_ten_toDigits]

theorem digits?_toDigits (n : Nat) : digits? (Nat.toDigits 10 n) = some n := by
  have hall : (Nat.toDigits 10 n).all isDigit = true := by
    rw [List.all_eq_true]
    intro c hc
    rw [isDigit_eq, isDigit_of_mem_toDigits hc]
  rw [digits?, hall, digitsFrom_eq_ofDigitChars fun c => isDigit_of_mem_toDigits,
    Nat.ofDigitChars_toDigits (by decide) (by decide)]
  simp [Nat.toDigits_ne_nil]

/-- Digits have no sign in front. -/
theorem toDigits_ne_cons {n : Nat} {c : Char} (hc : c.isDigit = false) (s : List Char) :
    Nat.toDigits 10 n ≠ c :: s := by
  intro heq
  rw [isDigit_of_mem_toDigits (heq ▸ List.mem_cons_self)] at hc
  cases hc

/-- A number that was written is read back, if it fits. -/
theorem readNat?_toString {bits n : Nat} (h : n < twoTo bits) : readNat? bits (toString n).toList = some n := by
  have hdigits : (toString n).toList = Nat.toDigits 10 n := Nat.toList_repr
  rw [hdigits, readNat?, digits?_toDigits]
  · exact if_pos h
  · exact fun s heq => toDigits_ne_cons rfl s heq

theorem takeSign_toDigits (n : Nat) : takeSign (Nat.toDigits 10 n) = (false, Nat.toDigits 10 n) := by
  unfold takeSign
  split
  · next heq => exact absurd heq (toDigits_ne_cons rfl _)
  · next heq => exact absurd heq (toDigits_ne_cons rfl _)
  · rfl

theorem toList_toString_ofNat (k : Nat) : (toString (Int.ofNat k)).toList = Nat.toDigits 10 k := Nat.toList_repr

/-- Numbers below zero have a sign in front of their digits. -/
theorem toList_toString_negSucc (k : Nat) :
    (toString (Int.negSucc k)).toList = '-' :: Nat.toDigits 10 (k + 1) := by
  have hsign : toString (Int.negSucc k) = "-" ++ Nat.repr (k + 1) := rfl
  rw [hsign, String.toList_append, Nat.toList_repr]
  rfl

/-- Only numbers below zero have a sign in front. -/
theorem toList_toString_inj {n m : Int} (h : (toString n).toList = (toString m).toList) : n = m := by
  -- Digits do not begin with the sign.
  cases n with
  | ofNat a =>
    rw [toList_toString_ofNat] at h
    cases m with
    | ofNat b =>
      rw [toList_toString_ofNat] at h
      rw [toDigits_inj h]
    | negSucc b =>
      rw [toList_toString_negSucc] at h
      exact absurd h (toDigits_ne_cons rfl _)
  | negSucc a =>
    rw [toList_toString_negSucc] at h
    cases m with
    | ofNat b =>
      rw [toList_toString_ofNat] at h
      exact absurd h.symm (toDigits_ne_cons rfl _)
    | negSucc b =>
      rw [toList_toString_negSucc] at h
      rw [Nat.succ.inj (toDigits_inj (List.tail_eq_of_cons_eq h))]

/-- A number with a sign is read back, if it fits. -/
theorem readInt?_toString {bits : Nat} {n : Int} (h : inSigned bits n = true) :
    readInt? bits (toString n).toList = some n := by
  cases n with
  | ofNat k =>
    rw [toList_toString_ofNat, readInt?, takeSign_toDigits]
    simp only [digits?_toDigits, Option.bind_eq_bind, Option.bind_some, Bool.false_eq_true, ↓reduceIte]
    exact if_pos h
  | negSucc k =>
    rw [toList_toString_negSucc, readInt?, takeSign]
    simp only [digits?_toDigits, Option.bind_eq_bind, Option.bind_some, ↓reduceIte]
    exact if_pos h

end Number

end RestTables
