import Mathlib.Tactic.Linarith
import Mathlib.Tactic.Ring
import RestTables.Number.Binary64

/-
Module: RestTables.Proofs.Number.Binary64
Purpose: How large the results of operations on doubles are. A result is rounded once, which adds little to its size,
  so that operations on numbers of moderate size have neither infinities nor not-a-numbers for results.
Main exports: Binary64.AtMost, Binary64.atMost_ofRatio, Binary64.AtMost.add, Binary64.AtMost.mul, Binary64.AtMost.div,
  Binary64.AtMost.round, Binary64.AtMost.isFinite
-/

namespace RestTables

theorem twoTo_eq_pow (n : Nat) : twoTo n = 2 ^ n := Nat.pow_eq

namespace Binary64

/-- The number is finite, and no larger than a power of two. -/
def AtMost (x : Binary64) (k : Nat) : Prop :=
  ∃ n d, x.toRational? = some (n, d) ∧ 0 < d ∧ n.natAbs ≤ d * 2 ^ k

/-- The number is finite, and no smaller than one. -/
def AtLeastOne (x : Binary64) : Prop := ∃ n d, x.toRational? = some (n, d) ∧ 0 < d ∧ d ≤ n.natAbs

instance (x : Binary64) (k : Nat) : Decidable (x.AtMost k) :=
  decidable_of_iff (x.toRational?.any fun q => decide (0 < q.2 ∧ q.1.natAbs ≤ q.2 * 2 ^ k)) <| by
    simp [AtMost, Option.any_eq_true]

instance (x : Binary64) : Decidable x.AtLeastOne :=
  decidable_of_iff (x.toRational?.any fun q => decide (0 < q.2 ∧ q.2 ≤ q.1.natAbs)) <| by
    simp [AtLeastOne, Option.any_eq_true]

variable {x y : Binary64} {j k : Nat}

/-! ## Bits -/

theorem toNat_ofNat_signBit (negative : Bool) {n : Nat} (h : n < 2 ^ 63) :
    (UInt64.ofNat (signBit negative + n)).toNat = signBit negative + n := by
  have hsign : signBit negative ≤ 2 ^ 63 := by cases negative <;> simp [signBit, twoTo_eq_pow]
  rw [UInt64.toNat_ofNat']
  omega

/-- A sign, a field for the exponent and a fraction are read back from their bits. -/
theorem view_ofNat (negative : Bool) (field fraction : Nat) (hfield : field < 2047) (hfraction : fraction < 2 ^ 52) :
    (⟨UInt64.ofNat (signBit negative + (field * 2 ^ 52 + fraction))⟩ : Binary64).view =
      if field = 0 then .finite negative fraction (-1074)
      else .finite negative (2 ^ 52 + fraction) (field - 1075) := by
  have hbits := toNat_ofNat_signBit negative (n := field * 2 ^ 52 + fraction) (by omega)
  have hexponent : (signBit negative + (field * 2 ^ 52 + fraction)) / 2 ^ 52 % 2048 = field := by
    cases negative <;> simp only [signBit, twoTo_eq_pow, Bool.false_eq_true, ↓reduceIte] <;> omega
  have hrest : (signBit negative + (field * 2 ^ 52 + fraction)) % 2 ^ 52 = fraction := by
    cases negative <;> simp only [signBit, twoTo_eq_pow, Bool.false_eq_true, ↓reduceIte] <;> omega
  have hsign : ((signBit negative + (field * 2 ^ 52 + fraction)) / 2 ^ 63 == 1) = negative := by
    cases negative <;>
      simp only [signBit, twoTo_eq_pow, Bool.false_eq_true, ↓reduceIte, beq_eq_false_iff_ne, beq_iff_eq] <;> omega
  have hnot : (field == 2047) = false := beq_false_of_ne (Nat.ne_of_lt hfield)
  simp only [view, hbits, twoTo_eq_pow, hexponent, hrest, hsign, hnot, Bool.false_eq_true, ↓reduceIte, beq_iff_eq]
  rfl

/-- The value of a number that is finite. -/
theorem atMost_of_view {negative : Bool} {m : Nat} {e : Int} (h : x.view = .finite negative m e) (hm : m ≤ 2 ^ 53)
    (he : e + 53 ≤ k) : x.AtMost k := by
  have habs : ∀ n : Nat, ((if negative then -1 else 1 : Int) * n).natAbs = n := by
    intro n
    cases negative <;> simp
  unfold AtMost toRational?
  simp only [h, twoTo_eq_pow]
  split
  · next hnonneg =>
    obtain ⟨n, rfl⟩ := Int.eq_ofNat_of_zero_le hnonneg
    refine ⟨_, 1, rfl, Nat.one_pos, ?_⟩
    rw [habs, Int.toNat_natCast, one_mul]
    calc m * 2 ^ n ≤ 2 ^ 53 * 2 ^ n := Nat.mul_le_mul_right _ hm
      _ = 2 ^ (53 + n) := (Nat.pow_add 2 53 n).symm
      _ ≤ 2 ^ k := Nat.pow_le_pow_right (by decide) (by omega)
  · next hneg =>
    refine ⟨_, _, rfl, Nat.pow_pos (by decide), ?_⟩
    rw [habs, ← Nat.pow_add]
    exact hm.trans (Nat.pow_le_pow_right (by decide) (by omega))

/-! ## Rounding -/

theorem log2_le {num den : Nat} (hnum : num ≠ 0) (h : num ≤ den * 2 ^ k) : Nat.log2 num ≤ Nat.log2 den + k := by
  have hlt : num < 2 ^ (Nat.log2 den + 1 + k) := by
    rw [Nat.pow_add]
    exact h.trans_lt (Nat.mul_lt_mul_of_pos_right Nat.lt_log2_self (Nat.pow_pos (by decide)))
  have := (Nat.log2_lt hnum).mpr hlt
  omega

/-- The exponent of a fraction in a format is that of a power of two above it, or the least one; rounding may add
one. -/
theorem exists_nearest {f : Format} {num den : Nat} (top : Int) (hnum : num ≠ 0) (h : num ≤ den * 2 ^ k)
    (hlow : f.minExponent ≤ top) (hk : k - (f.precision - 1 : Nat) ≤ top) (htop : top < f.maxExponent) :
    ∃ m e, nearest f num den = some (m, e) ∧ f.minExponent ≤ e ∧ e ≤ top + 1 := by
  have hlog := log2_le hnum h
  unfold nearest
  dsimp only
  generalize hguess : (num.log2 : Int) - den.log2 - (f.precision - 1 : Nat) = guess
  generalize scale num den guess = first
  generalize hexponent :
    max (if first.1 < first.2 * twoTo (f.precision - 1) then guess - 1 else guess) f.minExponent = exponent
  have hbounds : f.minExponent ≤ exponent ∧ exponent ≤ top := by
    subst hexponent
    split <;> omega
  generalize roundDiv _ _ = m
  -- the mantissa may have been rounded up to the next power of two
  cases m == twoTo f.precision with
  | true => exact ⟨_, exponent + 1, if_neg (by simp only [↓reduceIte]; omega), by omega, by omega⟩
  | false => exact ⟨m, exponent, if_neg (by simp only [Bool.false_eq_true, ↓reduceIte]; omega), by omega, by omega⟩

/-- The bits of a mantissa and an exponent are those of a number of that size. -/
theorem atMost_ofParts (negative : Bool) (m : Nat) {e : Int} (hlow : -1074 ≤ e) (he : e + 51 ≤ k) (hk : k ≤ 1021) :
    (ofParts negative m e).AtMost (k + 3) := by
  unfold ofParts
  simp only [twoTo_eq_pow]
  -- Subnormal, normal, or rounded up to the next power of two.
  by_cases hm : m < 2 ^ 52
  · have hview := view_ofNat negative 0 m (by decide) hm
    rw [Nat.zero_mul, Nat.zero_add] at hview
    rw [if_pos hm]
    exact atMost_of_view hview (by omega) (by omega)
  · rw [if_neg hm]
    by_cases hm' : m < 2 ^ 53
    · have hfield : (e + 1075).toNat ≠ 0 := by omega
      have hview := view_ofNat negative (e + 1075).toNat (m - 2 ^ 52) (by omega) (by omega)
      rw [if_neg hfield, ← Nat.add_assoc] at hview
      rw [if_pos hm']
      exact atMost_of_view hview (by omega) (by omega)
    · have hfield : (e + 1076).toNat ≠ 0 := by omega
      have hview := view_ofNat negative (e + 1076).toNat 0 (by omega) (Nat.pow_pos (by decide))
      rw [if_neg hfield, Nat.add_zero] at hview
      rw [if_neg hm']
      exact atMost_of_view hview (Nat.pow_le_pow_right (by decide) (by decide)) (by omega)

/-- A fraction that is no larger than a power of two is rounded to a number of that size. -/
theorem atMost_ofRatio (negative : Bool) {num den : Nat} (h : num ≤ den * 2 ^ k) (hk : k ≤ 1021) :
    (ofRatio negative num den).AtMost (k + 3) := by
  unfold ofRatio
  split
  · have hview := view_ofNat negative 0 0 (by decide) (by decide)
    exact atMost_of_view hview (by decide) (by omega)
  · next hnum =>
    obtain ⟨m, e, hnearest, hlow, he⟩ := exists_nearest (f := double) (k - 52) (by simpa using hnum) h
      (by simp only [double]; omega) (by simp only [double]; omega) (by simp only [double]; omega)
    simp only [hnearest]
    exact atMost_ofParts negative m hlow (by omega) hk

/-! ## Operations -/

theorem atMost_ofInt {n : Int} (h : n.natAbs ≤ 2 ^ k) (hk : k ≤ 1021) : (ofInt n).AtMost (k + 3) :=
  atMost_ofRatio _ (by rwa [Nat.one_mul]) hk

theorem AtMost.add (hx : x.AtMost j) (hy : y.AtMost k) (hk : max j k + 1 ≤ 1021) :
    (x.add y).AtMost (max j k + 1 + 3) := by
  obtain ⟨a, b, hab, -, ha⟩ := hx
  obtain ⟨c, d, hcd, -, hc⟩ := hy
  simp only [Binary64.add, lift₂, hab, hcd]
  apply atMost_ofRatio _ _ hk
  have hj : 2 ^ j ≤ 2 ^ max j k := Nat.pow_le_pow_right (by decide) (Nat.le_max_left j k)
  have hk : 2 ^ k ≤ 2 ^ max j k := Nat.pow_le_pow_right (by decide) (Nat.le_max_right j k)
  calc (a * d + c * b).natAbs ≤ a.natAbs * d + c.natAbs * b := by
        simpa only [Int.natAbs_mul, Int.natAbs_natCast] using Int.natAbs_add_le (a * d) (c * b)
    _ ≤ b * 2 ^ max j k * d + d * 2 ^ max j k * b := by gcongr <;> nlinarith
    _ = b * d * 2 ^ (max j k + 1) := by rw [Nat.pow_succ]; ring

theorem AtMost.mul (hx : x.AtMost j) (hy : y.AtMost k) (hk : j + k ≤ 1021) : (x.mul y).AtMost (j + k + 3) := by
  obtain ⟨a, b, hab, -, ha⟩ := hx
  obtain ⟨c, d, hcd, -, hc⟩ := hy
  simp only [Binary64.mul, lift₂, hab, hcd]
  apply atMost_ofRatio _ _ hk
  calc (a * c).natAbs = a.natAbs * c.natAbs := Int.natAbs_mul a c
    _ ≤ b * 2 ^ j * (d * 2 ^ k) := Nat.mul_le_mul ha hc
    _ = b * d * 2 ^ (j + k) := by rw [Nat.pow_add]; ring

/-- Dividing by what is no smaller than one makes nothing larger. -/
theorem AtMost.div (hx : x.AtMost k) (hy : y.AtLeastOne) (hk : k ≤ 1021) : (x.div y).AtMost (k + 3) := by
  obtain ⟨a, b, hab, -, ha⟩ := hx
  obtain ⟨c, d, hcd, -, hc⟩ := hy
  simp only [Binary64.div, lift₂, hab, hcd]
  apply atMost_ofRatio _ _ hk
  calc (if c < 0 then -(a * d) else a * d).natAbs = a.natAbs * d := by
        split <;> simp only [Int.natAbs_neg, Int.natAbs_mul, Int.natAbs_natCast]
    _ ≤ b * 2 ^ k * c.natAbs := Nat.mul_le_mul ha hc
    _ = b * c.natAbs * 2 ^ k := by ring

theorem AtMost.round (hx : x.AtMost k) (hk : k ≤ 1021) : x.round.AtMost (k + 3) := by
  obtain ⟨n, d, hnd, hd, hn⟩ := hx
  simp only [Binary64.round, hnd]
  apply atMost_ofRatio _ _ hk
  have hround : (2 * n.natAbs + d) / (2 * d) ≤ 2 ^ k := by
    apply Nat.le_of_lt_succ
    rw [Nat.div_lt_iff_lt_mul (by omega)]
    nlinarith
  have hsign : n.sign.natAbs ≤ 1 := by
    rcases Int.sign_trichotomy n with h | h | h <;> simp [h]
  calc (n.sign * ((2 * n.natAbs + d) / (2 * d) : Nat)).natAbs = n.sign.natAbs * ((2 * n.natAbs + d) / (2 * d)) := by
        rw [Int.natAbs_mul, Int.natAbs_natCast]
    _ ≤ 1 * 2 ^ k := Nat.mul_le_mul hsign hround

/-- A number is finite unless all bits of its exponent are set. -/
theorem isFinite_eq_true_iff : x.isFinite = true ↔ x.bits.toNat / 2 ^ 52 % 2048 ≠ 2047 := by
  rw [← twoTo_eq_pow 52]
  by_cases hexponent : x.bits.toNat / twoTo 52 % 2048 = 2047
  · by_cases hfraction : x.bits.toNat % twoTo 52 = 0 <;> simp [isFinite, view, hexponent, hfraction]
  · by_cases hzero : x.bits.toNat / twoTo 52 % 2048 = 0 <;> simp [isFinite, view, hexponent, hzero]

theorem AtMost.isFinite (hx : x.AtMost k) : x.isFinite = true := by
  obtain ⟨n, d, hnd, -, -⟩ := hx
  unfold toRational? at hnd
  unfold Binary64.isFinite
  split at hnd
  · rfl
  · cases hnd

/-- A number with the other sign is finite where the number is. -/
theorem isFinite_neg (x : Binary64) : x.neg.isFinite = x.isFinite := by
  have hbits : x.neg.bits.toNat % 2 ^ 63 = x.bits.toNat % 2 ^ 63 := by
    rw [neg, UInt64.toNat_xor, Nat.xor_mod_two_pow]
    exact Nat.xor_zero _
  rw [Bool.eq_iff_iff, isFinite_eq_true_iff, isFinite_eq_true_iff]
  omega

end Binary64

end RestTables
