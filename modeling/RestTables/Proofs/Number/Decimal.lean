import RestTables.Number.Decimal
import RestTables.Proofs.Number.Binary64

/-
Module: RestTables.Proofs.Number.Decimal
Purpose: A decimal that has been read has 96 bits and no more than 28 digits after its point, so that the double that
  stands for it is finite: every decimal has a JSON form.
Main exports: Decimal.IsBounded, Decimal.isBounded_of_ofText?, Decimal.isFinite_toBinary64
-/

namespace RestTables.Decimal

/-- Coefficient and scale are within bounds. -/
def IsBounded (d : Decimal) : Prop := d.coefficient < coefficientBound ∧ d.scale ≤ maxScale

variable {d : Decimal} {s : List Char}

/-! ## Reading -/

/-- What has been read so far is within bounds. -/
def Progress.IsBounded (p : Progress) : Prop := p.coefficient < coefficientBound ∧ p.scale ≤ maxScale

theorem isBounded_of_roundOff? {negative : Bool} {p : Progress} {digit : Nat} (hp : p.IsBounded)
    (h : roundOff? negative p digit s = some d) : d.IsBounded := by
  obtain ⟨hcoefficient, hscale⟩ := hp
  simp only [roundOff?, Option.ite_none_left_eq_some] at h
  obtain ⟨-, h⟩ := h
  split at h
  · cases h
    exact ⟨hcoefficient, hscale⟩
  · split at h
    · next hup =>
      cases h
      exact ⟨hup, hscale⟩
    · simp only [Option.ite_none_left_eq_some] at h
      obtain ⟨-, h⟩ := h
      cases h
      exact ⟨by simp only [of]; omega, by simp only [of]; omega⟩

/-- Every digit that is taken leaves what is read within bounds. -/
theorem isBounded_of_readFrom? {negative : Bool} {p : Progress} (hp : p.IsBounded)
    (h : readFrom? negative p s = some d) : d.IsBounded := by
  induction s generalizing p with
  | nil =>
    unfold readFrom? at h
    split at h
    · cases h
      exact hp
    · cases h
  | cons c s ih =>
    unfold readFrom? at h
    split at h
    · next digit _ =>
      dsimp only at h
      split at h
      · exact isBounded_of_roundOff? hp h
      · next hfull =>
        split at h
        · next hgrown =>
          -- Digits count behind the point only, and there is room for one more since reading has not stopped.
          refine ih ⟨hgrown, ?_⟩ h
          cases hpoint : p.point with
          | false => exact Nat.zero_le _
          | true =>
            have hroom : p.scale < maxScale := by simpa [Progress.isFull, hpoint] using hfull
            exact hroom
        · split at h
          · exact isBounded_of_roundOff? hp h
          · cases h
    · split at h
      · exact ih (p := { p with point := true }) hp h
      · split at h
        · split at h
          · exact isBounded_of_roundOff? hp h
          · exact ih hp h
        · cases h

theorem isBounded_of_read? (h : read? s = some d) : d.IsBounded :=
  isBounded_of_readFrom? ⟨by decide, by decide⟩ h

/-- Fewer digits do not make the coefficient larger. -/
theorem coefficient_rescale_le (d : Decimal) (scale : Nat) : (d.rescale scale).coefficient ≤ d.coefficient := by
  have hunit := tenTo_pos (d.scale - scale)
  simp only [rescale]
  generalize tenTo (d.scale - scale) = unit at hunit
  apply Nat.le_of_lt_succ
  rw [Nat.div_lt_iff_lt_mul hunit]
  have hgrown : d.coefficient ≤ d.coefficient * unit := Nat.le_mul_of_pos_right _ hunit
  rw [Nat.succ_mul]
  omega

theorem isBounded_of_scaleBy? {power : Int} {d' : Decimal} (hd : d.IsBounded) (h : scaleBy? d power = some d') :
    d'.IsBounded := by
  obtain ⟨hcoefficient, hscale⟩ := hd
  unfold scaleBy? at h
  -- A negative power moves the point, and digits beyond the largest scale are dropped. A positive one multiplies
  -- once no digit is left behind the point.
  split at h
  · split at h
    · cases h
    · dsimp only at h
      split at h
      · next hroom =>
        cases h
        exact ⟨hcoefficient, hroom⟩
      · cases h
        exact ⟨(coefficient_rescale_le d _).trans_lt hcoefficient, le_refl _⟩
  · dsimp only at h
    split at h
    · cases h
      exact ⟨hcoefficient, (Nat.sub_le _ _).trans hscale⟩
    · split at h
      · next hroom =>
        cases h
        exact ⟨hroom.2, Nat.zero_le _⟩
      · cases h

theorem isBounded_of_readScientific? (h : readScientific? s = some d) : d.IsBounded := by
  unfold readScientific? at h
  dsimp only at h
  split at h
  · cases h
  · obtain ⟨base, hbase, h⟩ := Option.bind_eq_some_iff.mp h
    obtain ⟨power, -, h⟩ := Option.bind_eq_some_iff.mp h
    exact isBounded_of_scaleBy? (isBounded_of_read? hbase) h

/-- A decimal is within bounds in whatever notation it is written. -/
theorem isBounded_of_ofText? (h : ofText? s = some d) : d.IsBounded := by
  rw [ofText?, Option.orElse_eq_orElse, Option.orElse_eq_or] at h
  rcases Option.or_eq_some_iff.mp h with h | ⟨-, h⟩
  · exact isBounded_of_read? h
  · exact isBounded_of_readScientific? h

/-! ## Double precision -/

/-- The powers of ten that scales stand for, and their doubles, are of moderate size. -/
theorem size_of_scale {scale : Nat} (h : scale ≤ maxScale) :
    (wholeFloat (tenTo scale)).AtLeastOne ∧ (powerOfTen scale).AtLeastOne ∧ (powerOfTen scale).AtMost 100 := by
  have hall : ∀ n : Fin (maxScale + 1), (wholeFloat (tenTo n.val)).AtLeastOne ∧ (powerOfTen n.val).AtLeastOne ∧
      (powerOfTen n.val).AtMost 100 := by decide +kernel
  exact hall ⟨scale, Nat.lt_succ_of_le h⟩

/-- The double that stands for a decimal is neither infinite nor a not-a-number. -/
theorem isFinite_toBinary64 (hd : d.IsBounded) : d.toBinary64.isFinite = true := by
  obtain ⟨hcoefficient, hscale⟩ := hd
  have hwhole : ∀ n, n ≤ d.coefficient → (wholeFloat n).AtMost (96 + 3) := fun n hn =>
    Binary64.atMost_ofInt (hn.trans hcoefficient.le) (by decide)
  unfold toBinary64
  dsimp only
  split
  · refine (Binary64.atMost_ofInt (k := 96) ?_ (by decide)).isFinite
    have habs : (if d.negative then -(d.coefficient : Int) else d.coefficient).natAbs = d.coefficient := by
      split <;> simp
    rw [habs]
    exact hcoefficient.le
  · obtain ⟨hunit, hpower, hpower'⟩ := size_of_scale hscale
    have hfloor := hwhole _ (Nat.div_le_self d.coefficient (tenTo d.scale))
    have hrest := (hwhole _ (Nat.mod_le d.coefficient (tenTo d.scale))).div hunit (by decide)
    split
    · split
      · rw [Binary64.isFinite_neg]
        exact hfloor.isFinite
      · exact hfloor.isFinite
    · have hsum := ((((hfloor.add hrest (by decide)).mul hpower' (by decide)).round (by decide)).div hpower
        (by decide)).isFinite
      split
      · rw [Binary64.isFinite_neg]
        exact hsum
      · exact hsum

end RestTables.Decimal
