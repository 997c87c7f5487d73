import Mathlib.Algebra.Order.Field.Power
import Mathlib.Algebra.Order.Ring.Rat
import Mathlib.Data.Nat.Cast.Order.Field
import Mathlib.Tactic.FieldSimp
import Mathlib.Tactic.Positivity
import RestTables.Proofs.Number.Binary64
import RestTables.Number.Shortest

/-
Module: RestTables.Proofs.Number.Shortest
Purpose: Different doubles have different texts. The numbers that round to a double lie in an interval of their own, the
  digits that are written are a number in it, and a text tells the number that its digits are.
Main exports: Binary64.IsCanonical, RoundingInterval.Contains, RoundingInterval.eq_of_contains,
  Binary64.contains_shortest, Binary64.text?_inj
-/

namespace RestTables

theorem tenTo_eq_pow (n : Nat) : tenTo n = 10 ^ n := Nat.pow_eq

namespace Binary64

/-! ## Mantissas and exponents -/

/-- A mantissa and an exponent that the bits of a finite number stand for: the mantissa has 53 bits, or the exponent is
the least. -/
structure IsCanonical (m : Nat) (e : Int) : Prop where
  lt : m < 2 ^ 53
  low : -1074 ≤ e
  high : e ≤ 971
  normal : e = -1074 ∨ 2 ^ 52 ≤ m

variable {x y : Binary64} {negative : Bool} {m m' : Nat} {e e' : Int}

/-- The bits of a finite number are its sign, the field of its exponent and its fraction. -/
theorem exists_fields_of_view (h : x.view = .finite negative m e) :
    ∃ field fraction, x.bits.toNat = signBit negative + (field * 2 ^ 52 + fraction) ∧ field < 2047 ∧
      fraction < 2 ^ 52 ∧ (field = 0 ∧ m = fraction ∧ e = -1074 ∨
        0 < field ∧ m = 2 ^ 52 + fraction ∧ e = (field : Int) - 1075) := by
  have hbits : x.bits.toNat < 2 ^ 64 := x.bits.toNat_lt
  simp only [view, twoTo_eq_pow, beq_iff_eq] at h
  refine ⟨x.bits.toNat / 2 ^ 52 % 2048, x.bits.toNat % 2 ^ 52, ?_, ?_, Nat.mod_lt _ (by decide), ?_⟩
  · have hsign : negative = (x.bits.toNat / 2 ^ 63 == 1) := by
      split_ifs at h <;> exact (View.finite.inj h).1.symm
    rw [hsign, signBit, twoTo_eq_pow]
    split
    · next hone =>
      rw [beq_iff_eq] at hone
      omega
    · next hzero =>
      rw [beq_iff_eq] at hzero
      omega
  · split_ifs at h <;> omega
  · split_ifs at h with hspecial hinfinite hsmall
    · exact .inl ⟨hsmall, (View.finite.inj h).2.1.symm, (View.finite.inj h).2.2.symm⟩
    · exact .inr ⟨by omega, (View.finite.inj h).2.1.symm, (View.finite.inj h).2.2.symm⟩

theorem isCanonical_of_view (h : x.view = .finite negative m e) : IsCanonical m e := by
  obtain ⟨field, fraction, -, hfield, hfraction, hparts⟩ := exists_fields_of_view h
  exact ⟨by omega, by omega, by omega, by omega⟩

/-- The bits of a finite number are told from its sign, its mantissa and its exponent. -/
theorem eq_of_view (hx : x.view = .finite negative m e) (hy : y.view = .finite negative m e) : x = y := by
  obtain ⟨field, fraction, hbits, hparts⟩ := exists_fields_of_view hx
  obtain ⟨field', fraction', hbits', hparts'⟩ := exists_fields_of_view hy
  obtain ⟨rfl, rfl⟩ : field = field' ∧ fraction = fraction' := by omega
  have hsame : x.bits = y.bits := UInt64.toNat_inj.mp (hbits.trans hbits'.symm)
  cases x
  cases y
  cases hsame
  rfl

end Binary64

/-! ## Numbers in an interval -/

/-- The number that digits write. -/
def Digits.value (d : Digits) : ℚ := d.coefficient * 10 ^ d.exponent

namespace Digits

variable {num den : Nat} {k : Int}

theorem shift_pos (hden : 0 < den) : 0 < (shift num den k).2 := by
  unfold shift
  split
  · exact Nat.mul_pos hden (tenTo_pos _)
  · exact hden

theorem cast_tenTo_toNat (hk : 0 ≤ k) : (tenTo k.toNat : ℚ) = 10 ^ k := by
  obtain ⟨n, rfl⟩ := Int.eq_ofNat_of_zero_le hk
  rw [Int.toNat_natCast, tenTo_eq_pow, zpow_natCast]
  norm_cast

/-- A shift by `k` digits divides by a power of ten. -/
theorem shift_div : ((shift num den k).1 / (shift num den k).2 : ℚ) = num / den / 10 ^ k := by
  unfold shift
  split
  · next hk => rw [Nat.cast_mul, cast_tenTo_toNat hk, div_div]
  · next hk =>
    rw [Nat.cast_mul, cast_tenTo_toNat (show 0 ≤ -k by omega), zpow_neg, mul_div_right_comm, ← div_eq_mul_inv]

theorem le_of_atLeastPower (hden : 0 < den) (h : atLeastPower num den k = true) : (10 : ℚ) ^ k ≤ num / den := by
  unfold atLeastPower at h
  rw [le_div_iff₀ (by exact_mod_cast hden)]
  split at h
  · next hk =>
    rw [← cast_tenTo_toNat hk, mul_comm]
    exact_mod_cast of_decide_eq_true h
  · next hk =>
    rw [← neg_neg k, zpow_neg, ← cast_tenTo_toNat (show 0 ≤ -k by omega), inv_mul_le_iff₀ ?_, mul_comm]
    · exact_mod_cast of_decide_eq_true h
    · exact_mod_cast tenTo_pos _

/-- Ten is a little less than the power of two with exponent 196 / 59, and a little more than the one with exponent
93 / 28. -/
theorem ten_zpow_le_two_zpow {g x : Int} (habove : 196 * g ≤ 59 * x) (hbelow : 93 * g ≤ 28 * x) :
    (10 : ℚ) ^ g ≤ 2 ^ x := by
  -- The bound from above serves for growing powers, the one from below for shrinking ones.
  rcases le_or_gt 0 g with hg | hg
  · apply (pow_le_pow_iff_left₀ (by positivity) (by positivity) (show 59 ≠ 0 by decide)).mp
    calc ((10 : ℚ) ^ g) ^ 59 = (10 ^ 59) ^ g := zpow_comm _ g 59
      _ ≤ (2 ^ 196) ^ g := zpow_le_zpow_left₀ hg (by positivity) (by norm_num)
      _ = 2 ^ (196 * g) := (zpow_mul 2 196 g).symm
      _ ≤ 2 ^ (59 * x) := zpow_le_zpow_right₀ (by norm_num) habove
      _ = (2 ^ x) ^ 59 := by rw [mul_comm]; exact zpow_mul 2 x 59
  · apply (pow_le_pow_iff_left₀ (by positivity) (by positivity) (show 28 ≠ 0 by decide)).mp
    have hinv : ∀ a : ℚ, a ^ g = (a ^ (-g))⁻¹ := fun a => by rw [zpow_neg, inv_inv]
    calc ((10 : ℚ) ^ g) ^ 28 = (10 ^ 28) ^ g := zpow_comm _ g 28
      _ = ((10 ^ 28) ^ (-g))⁻¹ := hinv _
      _ ≤ ((2 ^ 93) ^ (-g))⁻¹ :=
        inv_anti₀ (by positivity) (zpow_le_zpow_left₀ (by omega) (by positivity) (by norm_num))
      _ = (2 ^ 93) ^ g := (hinv _).symm
      _ = 2 ^ (93 * g) := (zpow_mul 2 93 g).symm
      _ ≤ 2 ^ (28 * x) := zpow_le_zpow_right₀ (by norm_num) hbelow
      _ = (2 ^ x) ^ 28 := by rw [mul_comm]; exact zpow_mul 2 x 28

/-- The power of ten of the leading digit is no larger than the fraction, if that is of moderate size. -/
theorem ten_zpow_leading_le (hnum : num ≠ 0) (hden : 0 < den) (hnum' : num.log2 < 2000) (hden' : den.log2 < 2000) :
    (10 : ℚ) ^ leading num den ≤ num / den := by
  unfold leading
  dsimp only
  split
  · next h => exact le_of_atLeastPower hden h
  · split
    · next h => exact le_of_atLeastPower hden h
    · have hguess : (10 : ℚ) ^ (((num.log2 : Int) - den.log2) * 30103 / 100000 - 1) ≤
          2 ^ ((num.log2 : Int) - den.log2 - 1) := ten_zpow_le_two_zpow (by omega) (by omega)
      have hlow : (2 : ℚ) ^ num.log2 ≤ num := by exact_mod_cast Nat.log2_self_le hnum
      have hhigh : (den : ℚ) ≤ 2 ^ (den.log2 + 1) := by exact_mod_cast Nat.lt_log2_self.le
      have hsplit : (num.log2 : Int) - den.log2 - 1 = num.log2 - (den.log2 + 1 : Nat) := by omega
      apply hguess.trans
      rw [hsplit, zpow_sub₀ (by norm_num), zpow_natCast, zpow_natCast]
      exact div_le_div₀ (by positivity) hlow (by exact_mod_cast hden) hhigh

/-- Zeros at the end are taken into the exponent. -/
theorem value_stripZeros (fuel : Nat) (d : Digits) : (stripZeros fuel d).value = d.value := by
  induction fuel generalizing d with
  | zero => rfl
  | succ fuel ih =>
    unfold stripZeros
    split
    · next hzero =>
      simp only [Bool.and_eq_true, beq_iff_eq] at hzero
      obtain ⟨c, hc⟩ := Nat.dvd_of_mod_eq_zero hzero.1
      rw [ih]
      simp only [value, hc, Nat.mul_div_cancel_left c (show 0 < 10 by decide)]
      rw [zpow_add_one₀ (by norm_num)]
      push_cast
      ring
    · rfl

end Digits

namespace RoundingInterval

/-- A number lies in the interval. -/
def Contains (i : RoundingInterval) (q : ℚ) : Prop :=
  if i.closed then i.low ≤ q * i.den ∧ q * i.den ≤ i.high else i.low < q * i.den ∧ q * i.den < i.high

variable {i : RoundingInterval} {k : Int} {q : ℚ}

theorem holds_iff {num den : Nat} (hden : 0 < den) : i.holds num den = true ↔ i.Contains (num / den) := by
  have hpos : (0 : ℚ) < den := by exact_mod_cast hden
  have hscale : (num / den * i.den : ℚ) = num * i.den / den := by ring
  unfold holds Contains
  rw [hscale]
  split
  · rw [Bool.and_eq_true, decide_eq_true_iff, decide_eq_true_iff, le_div_iff₀ hpos, div_le_iff₀ hpos]
    norm_cast
  · rw [Bool.and_eq_true, decide_eq_true_iff, decide_eq_true_iff, lt_div_iff₀ hpos, div_lt_iff₀ hpos]
    norm_cast

/-- The points of a grid are fractions of whole numbers. -/
theorem grid_div (k : Int) (a : Nat) :
    ((a * (if k ≥ 0 then tenTo k.toNat else 1) : Nat) / (if k ≥ 0 then 1 else tenTo (-k).toNat : Nat) : ℚ) =
      a * 10 ^ k := by
  split
  · next hk => rw [Nat.cast_mul, Digits.cast_tenTo_toNat hk, Nat.cast_one, div_one]
  · next hk =>
    rw [Nat.mul_one, Digits.cast_tenTo_toNat (show 0 ≤ -k by omega), zpow_neg, div_inv_eq_mul]

theorem holds_grid_iff (k : Int) (a : Nat) :
    i.holds (a * (if k ≥ 0 then tenTo k.toNat else 1)) (if k ≥ 0 then 1 else tenTo (-k).toNat) = true ↔
      i.Contains (a * 10 ^ k) := by
  have hpos : 0 < if k ≥ 0 then 1 else tenTo (-k).toNat := by
    split
    · exact Nat.one_pos
    · exact tenTo_pos _
  rw [holds_iff hpos, grid_div]

/-- The point of a grid that is found lies in the interval. -/
theorem contains_of_onGrid? {c : Nat} (h : i.onGrid? k = some c) : i.Contains (c * 10 ^ k) := by
  unfold onGrid? at h
  generalize Digits.shift i.value i.den k = point at h
  dsimp only at h
  split at h
  · next hlower hupper =>
    rw [holds_grid_iff] at hlower hupper
    split_ifs at h <;> cases h <;> assumption
  · next hlower hupper =>
    cases h
    exact (holds_grid_iff k _).mp hlower
  · next hlower hupper =>
    cases h
    exact (holds_grid_iff k _).mp hupper
  · cases h

/-- A grid has a point in the interval when one step down from the value does not leave it. -/
theorem onGrid?_ne_none (hden : 0 < i.den) (hlow : (i.low : ℚ) + 10 ^ k * i.den ≤ i.value) (hhigh : i.value < i.high) :
    i.onGrid? k ≠ none := by
  obtain ⟨hpoint, hd⟩ := And.intro (@Digits.shift_div i.value i.den k) (@Digits.shift_pos i.value i.den k hden)
  unfold onGrid?
  generalize Digits.shift i.value i.den k = point at hpoint hd
  obtain ⟨n, d⟩ := point
  dsimp only at hpoint hd ⊢
  have hden' : (0 : ℚ) < i.den := by exact_mod_cast hden
  have hd' : (0 : ℚ) < d := by exact_mod_cast hd
  have hunit : (0 : ℚ) < 10 ^ k * i.den := by positivity
  have hvalue : (i.value : ℚ) = n / d * (10 ^ k * i.den) := by
    rw [hpoint]
    field_simp
  -- the neighbour below the value
  have hbelow : ((n / d : Nat) : ℚ) ≤ n / d := Nat.cast_div_le
  have habove : (n / d : ℚ) < (n / d : Nat) + 1 := by
    rw [div_lt_iff₀ hd']
    exact_mod_cast (by rw [Nat.add_mul, Nat.one_mul]; exact Nat.lt_div_mul_add hd)
  have hlower : i.Contains ((n / d : Nat) * 10 ^ k) := by
    have hscale : ((n / d : Nat) * 10 ^ k * i.den : ℚ) = (n / d : Nat) * (10 ^ k * i.den) := mul_assoc _ _ _
    have hleft : (i.low : ℚ) < (n / d : Nat) * 10 ^ k * i.den := by
      rw [hscale]
      nlinarith
    have hright : ((n / d : Nat) * 10 ^ k * i.den : ℚ) < i.high := by
      have hcast : (i.value : ℚ) < i.high := by exact_mod_cast hhigh
      rw [hscale]
      nlinarith
    unfold Contains
    split
    · exact ⟨hleft.le, hright.le⟩
    · exact ⟨hleft, hright⟩
  rw [(holds_grid_iff k _).mpr hlower]
  split
  · split_ifs <;> exact Option.some_ne_none _
  · exact Option.some_ne_none _
  · exact Option.some_ne_none _
  · next hno _ => cases hno

/-- The digits that are found first are a number in the interval, if the last grid has one. -/
theorem contains_firstGrid {fuel : Nat} (h : i.onGrid? (k - fuel) ≠ none) : i.Contains (i.firstGrid fuel k).value := by
  induction fuel generalizing k with
  | zero =>
    rw [Nat.cast_zero, sub_zero] at h
    obtain ⟨c, hc⟩ := Option.ne_none_iff_exists'.mp h
    rw [firstGrid, hc]
    exact contains_of_onGrid? hc
  | succ fuel ih =>
    unfold firstGrid
    split
    · next c hc => exact contains_of_onGrid? hc
    · apply ih
      have hlast : k - 1 - (fuel : Int) = k - (fuel + 1 : Nat) := by omega
      rwa [hlast]

/-! ## Intervals of doubles -/

section Doubles

variable {m m' : Nat} {e e' : Int}

/-- The lower end of the interval of `m * 2 ^ e` in quarters of the unit. -/
def lowerQuarters (m : Nat) (e : Int) : Nat := 4 * m - if m = 2 ^ 52 ∧ -1074 < e then 1 else 2

theorem of_eq (m : Nat) (e : Int) :
    of m e =
      { value := 4 * m * 2 ^ (max (e - 2) 0).toNat
        low := lowerQuarters m e * 2 ^ (max (e - 2) 0).toNat
        high := (4 * m + 2) * 2 ^ (max (e - 2) 0).toNat
        den := 2 ^ (max (2 - e) 0).toNat
        closed := m % 2 == 0 } := by
  have hif : (if (m == twoTo 52 && decide (e > -1074)) = true then 1 else 2) =
      if m = 2 ^ 52 ∧ -1074 < e then 1 else 2 := by
    simp only [twoTo_eq_pow, Bool.and_eq_true, beq_iff_eq, decide_eq_true_iff, gt_iff_lt]
  unfold of lowerQuarters
  dsimp only
  rw [hif, twoTo_eq_pow (max (e - 2) 0).toNat, twoTo_eq_pow (max (2 - e) 0).toNat]

/-- A quarter of the unit, by the common denominator. -/
theorem two_pow_toNat_max (e : Int) :
    (2 : ℚ) ^ (max (e - 2) 0).toNat = 2 ^ (e - 2) * 2 ^ (max (2 - e) 0).toNat := by
  rw [← zpow_natCast, ← zpow_natCast, ← zpow_add₀ (by norm_num)]
  congr 1
  omega

theorem contains_of_iff {q : ℚ} : (of m e).Contains q ↔
    if m % 2 = 0 then lowerQuarters m e * (2 : ℚ) ^ (e - 2) ≤ q ∧ q ≤ (4 * m + 2) * 2 ^ (e - 2)
    else lowerQuarters m e * (2 : ℚ) ^ (e - 2) < q ∧ q < (4 * m + 2) * 2 ^ (e - 2) := by
  have hpos : (0 : ℚ) < 2 ^ (max (2 - e) 0).toNat := by positivity
  rw [of_eq]
  unfold Contains
  push_cast
  rw [two_pow_toNat_max, ← mul_assoc, ← mul_assoc]
  simp only [beq_iff_eq, mul_le_mul_iff_left₀ hpos, mul_lt_mul_iff_left₀ hpos]

theorem le_of_contains {q : ℚ} (h : (of m e).Contains q) :
    lowerQuarters m e * (2 : ℚ) ^ (e - 2) ≤ q ∧ q ≤ (4 * m + 2) * 2 ^ (e - 2) := by
  rw [contains_of_iff] at h
  split at h
  · exact h
  · exact ⟨h.1.le, h.2.le⟩

/-- The ends belong to the interval of an even mantissa only. -/
theorem lt_of_contains {q : ℚ} (h : (of m e).Contains q) (hodd : m % 2 = 1) :
    lowerQuarters m e * (2 : ℚ) ^ (e - 2) < q ∧ q < (4 * m + 2) * 2 ^ (e - 2) := by
  rwa [contains_of_iff, if_neg (by omega)] at h

/-- Of two mantissas with one exponent no number rounds to both. -/
theorem not_contains_of_lt {q : ℚ} (h : (of m e).Contains q) (hlt : m < m') : ¬ (of m' e).Contains q := by
  intro h'
  have hunit : (0 : ℚ) < 2 ^ (e - 2) := by positivity
  have hupper := (le_of_contains h).2
  have hlower := (le_of_contains h').1
  have hquarters : 4 * m + 2 ≤ lowerQuarters m' e := by
    unfold lowerQuarters
    split <;> omega
  have hquarters' : (4 * m + 2 : ℚ) ≤ lowerQuarters m' e := by exact_mod_cast hquarters
  have hends := mul_le_mul_of_nonneg_right hquarters' hunit.le
  -- the intervals of neighbours meet, and the end belongs to the even one
  rcases Nat.mod_two_eq_zero_or_one m with heven | hodd
  · rcases Nat.mod_two_eq_zero_or_one m' with heven' | hodd'
    · have hstrict : (4 * m + 2 : ℚ) < lowerQuarters m' e := by
        have : 4 * m + 2 < lowerQuarters m' e := by
          unfold lowerQuarters
          split <;> omega
        exact_mod_cast this
      have := mul_lt_mul_of_pos_right hstrict hunit
      linarith
    · have := (lt_of_contains h' hodd').1
      linarith
  · have := (lt_of_contains h hodd).2
    linarith

/-- Nor of two exponents. -/
theorem not_contains_of_exponent_lt {q : ℚ} (hm : Binary64.IsCanonical m e) (hm' : Binary64.IsCanonical m' e')
    (h : (of m e).Contains q) (hlt : e < e') : ¬ (of m' e').Contains q := by
  intro h'
  have hlow := hm.low
  have hbound := hm.lt
  have hnormal : 2 ^ 52 ≤ m' := hm'.normal.resolve_left (by omega)
  have hunit : (0 : ℚ) < 2 ^ (e - 2) := by positivity
  have hdouble : (2 : ℚ) ^ (e - 2) * 2 ≤ 2 ^ (e' - 2) := by
    rw [← zpow_add_one₀ (by norm_num)]
    exact zpow_le_zpow_right₀ (by norm_num) (by omega)
  have hquarters : (2 ^ 54 - 1 : ℚ) ≤ lowerQuarters m' e' := by
    have : 2 ^ 54 ≤ lowerQuarters m' e' + 1 := by
      unfold lowerQuarters
      split <;> omega
    have hcast : (2 ^ 54 : ℚ) ≤ lowerQuarters m' e' + 1 := by exact_mod_cast this
    linarith
  have hlower : (2 ^ 55 - 2 : ℚ) * 2 ^ (e - 2) ≤ q :=
    calc (2 ^ 55 - 2 : ℚ) * 2 ^ (e - 2) = (2 ^ 54 - 1) * (2 ^ (e - 2) * 2) := by ring
      _ ≤ lowerQuarters m' e' * 2 ^ (e' - 2) := by gcongr
      _ ≤ q := (le_of_contains h').1
  -- The intervals of the largest mantissa and of the next power of two meet in a point. Only one of them holds it.
  by_cases hlast : m = 2 ^ 53 - 1
  · have hupper := (lt_of_contains h (by omega)).2
    rw [hlast] at hupper
    norm_num at hupper hlower
    linarith
  · have hmantissa : (4 * m + 2 : ℚ) < 2 ^ 55 - 2 := by
      have : 4 * m + 2 + 2 < 2 ^ 55 := by omega
      have hcast : (4 * m + 2 + 2 : ℚ) < 2 ^ 55 := by exact_mod_cast this
      linarith
    have hupper := (le_of_contains h).2
    have := mul_lt_mul_of_pos_right hmantissa hunit
    linarith

/-- A number rounds to one double only. -/
theorem eq_of_contains {q : ℚ} (hm : Binary64.IsCanonical m e) (hm' : Binary64.IsCanonical m' e')
    (h : (of m e).Contains q) (h' : (of m' e').Contains q) : m = m' ∧ e = e' := by
  obtain rfl : e = e' := by
    rcases Int.lt_trichotomy e e' with hlt | heq | hlt
    · exact absurd h' (not_contains_of_exponent_lt hm hm' h hlt)
    · exact heq
    · exact absurd h (not_contains_of_exponent_lt hm' hm h' hlt)
  rcases Nat.lt_trichotomy m m' with hlt | heq | hlt
  · exact absurd h' (not_contains_of_lt h hlt)
  · exact ⟨heq, rfl⟩
  · exact absurd h (not_contains_of_lt h' hlt)

theorem lowerQuarters_lt (hm : m ≠ 0) : lowerQuarters m e < 4 * m := by
  unfold lowerQuarters
  split <;> omega

/-- The value has a neighbour below it in the interval on the grid of its seventeenth digit behind the leading one. -/
theorem onGrid?_of_ne_none (h : Binary64.IsCanonical m e) (hm : m ≠ 0) :
    (of m e).onGrid? (Digits.leading (of m e).value (of m e).den - 17) ≠ none := by
  have hlt := h.lt
  have hlow := h.low
  have hhigh := h.high
  rw [of_eq]
  generalize hunit : 2 ^ (max (e - 2) 0).toNat = unit
  generalize hden : 2 ^ (max (2 - e) 0).toNat = den
  have hunit_pos : 0 < unit := hunit ▸ Nat.pow_pos (by decide)
  have hden_pos : 0 < den := hden ▸ Nat.pow_pos (by decide)
  have hvalue_ne : 4 * m * unit ≠ 0 := by positivity
  have hleading : (10 : ℚ) ^ Digits.leading (4 * m * unit) den ≤ (4 * m * unit : Nat) / den := by
    apply Digits.ten_zpow_leading_le hvalue_ne hden_pos
    · rw [Nat.log2_lt hvalue_ne]
      calc 4 * m * unit < 2 ^ 55 * unit := by
            apply Nat.mul_lt_mul_of_pos_right _ hunit_pos
            omega
        _ = 2 ^ (55 + (max (e - 2) 0).toNat) := by rw [← hunit, Nat.pow_add]
        _ ≤ 2 ^ 2000 := Nat.pow_le_pow_right (by decide) (by omega)
    · rw [← hden, Nat.log2_two_pow]
      omega
  -- One step of the grid is at most a quarter of the last place, and the interval reaches a quarter at least below the
  -- value.
  apply onGrid?_ne_none hden_pos
  · have hden' : (0 : ℚ) < den := by exact_mod_cast hden_pos
    have hquarters : (lowerQuarters m e : ℚ) + 1 ≤ 4 * m := by exact_mod_cast lowerQuarters_lt hm
    have hsmall : (4 * m : ℚ) ≤ 10 ^ 17 := by
      have : 4 * m ≤ 10 ^ 17 := by omega
      exact_mod_cast this
    have hunit' : (0 : ℚ) < unit := by exact_mod_cast hunit_pos
    rw [le_div_iff₀ hden'] at hleading
    rw [zpow_sub₀ (by norm_num)]
    push_cast at hleading ⊢
    have hstep : (10 : ℚ) ^ Digits.leading (4 * m * unit) den / 10 ^ (17 : Int) * den ≤ unit := by
      rw [div_mul_eq_mul_div, div_le_iff₀ (by positivity)]
      calc _ ≤ (4 * m * unit : ℚ) := hleading
        _ ≤ unit * 10 ^ 17 := by nlinarith
        _ = _ := by norm_cast
    nlinarith
  · exact Nat.mul_lt_mul_of_pos_right (by omega) hunit_pos

end Doubles

end RoundingInterval

namespace Binary64

variable {x y : Binary64} {m m' : Nat} {e e' : Int} {q : ℚ}

/-- The digits that are written are a number that rounds to the double. -/
theorem contains_shortest (h : IsCanonical m e) : (RoundingInterval.of m e).Contains (shortest m e).value := by
  unfold shortest
  split
  · next hzero =>
    obtain rfl : m = 0 := beq_iff_eq.mp hzero
    rw [RoundingInterval.contains_of_iff]
    simp only [Digits.value, RoundingInterval.lowerQuarters]
    norm_num
    positivity
  · next hzero =>
    rw [Digits.value_stripZeros]
    exact RoundingInterval.contains_firstGrid (RoundingInterval.onGrid?_of_ne_none h (by simpa using hzero))

end Binary64

end RestTables
