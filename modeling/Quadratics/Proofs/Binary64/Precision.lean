import Quadratics.Proofs.Binary64.Operations

/-!
# How much rounding changes

Rounding moves a rational number by half of the least positive number at most, or by
one part in `2 ^ 53` of it (`abs_toRat_rounded_sub_le`).  It moves it not at all where
the number has at most 53 binary digits: a count of units with so few leading digits is
a magnitude (`exists_finite_shift`), so whole numbers up to `2 ^ 53` are binary64
numbers (`toRat_rounded_intCast`), and doubling is exact as long as it stays finite
(`toRat_mul_of_power`).

What is half a unit at most rounds to zero, and nothing else does (`RoundsTo.vanishes_iff`).
From `2 ^ 52` on, every finite number is whole (`isWhole_of_large`).
-/

namespace Quadratics.Binary64

set_option autoImplicit false

variable {x y : Binary64}

/-! ## The error of one rounding -/

/-- Half of the least positive number. -/
def halfUnit : ℚ :=
  1 / 2 ^ 1075

theorem halfUnit_pos : 0 < halfUnit := by
  rw [halfUnit]
  positivity

theorem halfUnit_lt_one : halfUnit < 1 := by
  rw [halfUnit]
  exact (div_lt_one (by positivity)).mpr (one_lt_pow₀ one_lt_two (by decide))

theorem unitsPerOne_cast : (unitsPerOne : ℚ) = 2 ^ 1074 := by
  rw [unitsPerOne_eq, Nat.cast_pow, Nat.cast_ofNat]

theorem two_mul_halfUnit : 2 * halfUnit = 1 / unitsPerOne := by
  rw [halfUnit, unitsPerOne_cast, pow_succ]
  generalize (2 : ℚ) ^ 1074 = unit
  ring

theorem two_pow_mul_inverse (bits more : Nat) :
    (2 : ℚ) ^ bits * (1 / 2 ^ (bits + more)) = 1 / 2 ^ more := by
  rw [pow_add]
  field_simp

/-- Half a unit is small beside the inverse of every finite number. -/
theorem overflowBound_mul_halfUnit_le : overflowBound * halfUnit ≤ 1 / 2 ^ 51 := by
  have top : overflowBound ≤ 2 ^ 1024 := sub_le_self _ (pow_nonneg zero_le_two _)
  exact (mul_le_mul_of_nonneg_right top halfUnit_pos.le).trans_eq (two_pow_mul_inverse 1024 51)

/-- A rounded quotient is at most half of its last bit away. -/
theorem two_mul_offset_le {numerator denominator : Nat} (positive : 0 < denominator) :
    2 * offset (roundedSignificand numerator denominator <<<
        droppedBits numerator denominator : Nat) numerator denominator ≤
      denominator <<< droppedBits numerator denominator := by
  have scaled : (roundedSignificand numerator denominator <<< droppedBits numerator denominator) *
      denominator = roundedSignificand numerator denominator *
        (denominator <<< droppedBits numerator denominator) := shiftLeft_mul _ _ _
  have unitPositive := shifted_pos positive (droppedBits numerator denominator)
  rw [offset, ← Int.natCast_mul, scaled, roundedSignificand]
  generalize denominator <<< droppedBits numerator denominator = unit at *
  have divided := Nat.div_add_mod' numerator unit
  have remainder := Nat.mod_lt numerator unitPositive
  rcases nearestEven_cases numerator unit with ⟨down, half⟩ | ⟨up, half⟩
  · rw [down]
    omega
  · rw [up, Nat.succ_mul (numerator / unit)]
    omega

/-- **Rounding changes a number by half a unit or by one part in `2 ^ 53` at most.** -/
theorem abs_toRat_rounded_sub_le {value : ℚ} (finite : (rounded value).isFinite = true) :
    |(rounded value).toRat - value| ≤ max halfUnit (|value| / 2 ^ 53) := by
  have unitPositive := unitsPerOne_cast_pos
  have denPositive : (0 : ℚ) < value.den := Nat.cast_pos.mpr value.den_pos
  have distance := abs_ofQuotient_sub value.den_pos finite
  have half := @two_mul_offset_le (value.num.natAbs * unitsPerOne) _ value.den_pos
  have leading := @leading_le_numerator (value.num.natAbs * unitsPerOne) _ value.den_pos
  have magnitudeOf := natAbs_num_div_den value
  rw [signedRat_num_div_den] at distance
  rw [rounded, distance, ← magnitudeOf]
  generalize droppedBits (value.num.natAbs * unitsPerOne) value.den = dropped at *
  generalize offset _ (value.num.natAbs * unitsPerOne) value.den = error at *
  rw [div_div, div_le_iff₀ (mul_pos denPositive unitPositive)]
  by_cases none : dropped = 0
  · subst none
    refine le_trans ?_ (mul_le_mul_of_nonneg_right (le_max_left _ _)
      (mul_pos denPositive unitPositive).le)
    have halfCast : (2 : ℚ) * error ≤ value.den := by exact_mod_cast half
    have unitHalf : halfUnit * (value.den * unitsPerOne) = value.den / 2 := by
      have doubled := two_mul_halfUnit
      rw [eq_div_iff unitPositive.ne'] at doubled
      linear_combination (value.den / 2 : ℚ) * doubled
    linarith
  · refine le_trans ?_ (mul_le_mul_of_nonneg_right (le_max_right _ _)
      (mul_pos denPositive unitPositive).le)
    have bound : 2 ^ 53 * error ≤ value.num.natAbs * unitsPerOne := by
      have := leading none
      omega
    have boundCast : (2 : ℚ) ^ 53 * error ≤ value.num.natAbs * unitsPerOne := by
      exact_mod_cast bound
    rw [div_div, div_mul_eq_mul_div, le_div_iff₀ (by positivity)]
    have scaled := mul_le_mul_of_nonneg_right boundCast denPositive.le
    linarith

/-- A quotient is not halved by being rounded, unless to zero. -/
theorem le_two_mul_magnitude {negative : Bool} {numerator denominator : Nat}
    (positive : 0 < denominator)
    (finite : (ofQuotient negative numerator denominator).isFinite = true)
    (nonzero : (ofQuotient negative numerator denominator).magnitude ≠ 0) :
    numerator ≤ 2 * (ofQuotient negative numerator denominator).magnitude * denominator := by
  have half := @two_mul_offset_le numerator denominator positive
  have leading := @leading_le_numerator numerator denominator positive
  rw [magnitude_ofQuotient finite] at nonzero ⊢
  rw [offset, ← Int.natCast_mul] at half
  generalize droppedBits numerator denominator = dropped at *
  generalize roundedSignificand numerator denominator <<< dropped = magnitude at *
  have counted : denominator ≤ magnitude * denominator :=
    Nat.le_mul_of_pos_left _ (Nat.pos_of_ne_zero nonzero)
  rw [Nat.mul_assoc]
  rcases Nat.eq_zero_or_pos dropped with rfl | dropping
  · rw [Nat.shiftLeft_zero] at half
    omega
  · have large := leading dropping.ne'
    generalize denominator <<< dropped = unit at *
    omega

/-- **A number that is not too small is changed by one part in `2 ^ 53` at most**, and zero is
not changed. -/
theorem abs_toRat_rounded_sub_le_part {value : ℚ} (finite : (rounded value).isFinite = true)
    (normal : value = 0 ∨ 1 / 2 ^ 1022 ≤ |value|) :
    |(rounded value).toRat - value| ≤ |value| / 2 ^ 53 := by
  rcases normal with rfl | large
  · rw [← alike_rounded_zero.toRat_eq, toRat_zero, sub_self, abs_zero, zero_div]
  · refine (abs_toRat_rounded_sub_le finite).trans (max_le ?_ le_rfl)
    rw [halfUnit, (by rw [← pow_add] : (2 : ℚ) ^ 1075 = 2 ^ 1022 * 2 ^ 53), ← div_div]
    exact div_le_div_of_nonneg_right large (by positivity)

/-- **Rounding changes no number by more than `2 ^ 970`**, half of the last bit of the
largest finite numbers. -/
theorem abs_toRat_rounded_sub_le_pow {value : ℚ} (finite : (rounded value).isFinite = true) :
    |(rounded value).toRat - value| ≤ 2 ^ 970 := by
  have denPositive : (0 : ℚ) < value.den := Nat.cast_pos.mpr value.den_pos
  have distance := abs_ofQuotient_sub value.den_pos finite
  have half := @two_mul_offset_le (value.num.natAbs * unitsPerOne) _ value.den_pos
  rw [signedRat_num_div_den] at distance
  have exponent := (isFinite_ofQuotient_iff_exponent _ _ _).mp finite
  have dropped : droppedBits (value.num.natAbs * unitsPerOne) value.den ≤ 2045 := by
    unfold roundedExponent at exponent
    split at exponent <;> omega
  rw [rounded, distance, div_div, div_le_iff₀ (mul_pos denPositive unitsPerOne_cast_pos)]
  have coarse := half.trans (shiftLeft_mono value.den dropped)
  generalize offset _ (value.num.natAbs * unitsPerOne) value.den = error at *
  have cast : ∀ bits : Nat, 2 * error ≤ value.den <<< bits →
      (2 : ℚ) * error ≤ value.den * 2 ^ bits := fun bits le => by
    rw [Nat.shiftLeft_eq] at le
    exact_mod_cast le
  have coarseCast := cast 2045 coarse
  have split : (2 : ℚ) ^ 2045 = 2 * (2 ^ 970 * 2 ^ 1074) := by
    rw [← pow_add, ← pow_succ']
  rw [split] at coarseCast
  rw [unitsPerOne_cast]
  generalize (2 : ℚ) ^ 970 = large at *
  generalize (2 : ℚ) ^ 1074 = unit at *
  linarith

/-- What one rounding is off by, as a sum of the two parts of the bound. -/
theorem Alike.abs_sub_le {value : ℚ} (alike : Alike x (rounded value))
    (finite : x.isFinite = true) : |x.toRat - value| ≤ |value| / 2 ^ 53 + halfUnit := by
  rw [alike.toRat_eq]
  refine (abs_toRat_rounded_sub_le (alike.isFinite_eq.symm.trans finite)).trans ?_
  exact max_le (le_add_of_nonneg_left (by positivity)) (le_add_of_nonneg_right halfUnit_pos.le)

/-- A finite number that is no zero is one unit at least. -/
theorem two_mul_halfUnit_le_abs (finite : x.isFinite = true) (nonzero : ¬ x.Vanishes) :
    2 * halfUnit ≤ |x.toRat| := by
  have positive : 1 ≤ x.magnitude := Nat.pos_of_ne_zero fun zero => nonzero ⟨finite, zero⟩
  rw [two_mul_halfUnit, abs_toRat]
  exact div_le_div_of_nonneg_right (by exact_mod_cast positive) unitsPerOne_cast_pos.le

/-! ## Numbers with few digits -/

/-- The exact value of a number that counts wholes. -/
theorem toRat_finite (negative : Bool) (significand exponent : Nat)
    (canonical : Canonical significand (1074 + exponent)) :
    (Binary64.finite negative significand (1074 + exponent) canonical).toRat =
      signedRat negative (significand * 2 ^ exponent) := by
  have magnitude : (Binary64.finite negative significand (1074 + exponent) canonical).magnitude =
      significand * 2 ^ exponent * unitsPerOne := by
    show significand <<< (1074 + exponent) = _
    rw [Nat.shiftLeft_eq, Nat.add_comm, pow_add, ← Nat.mul_assoc, ← unitsPerOne_eq]
  rw [toRat_eq, magnitude, Nat.cast_mul, mul_div_cancel_right₀ _ unitsPerOne_cast_pos.ne']
  push_cast
  rfl

/-- A significand may be shorter than the canonical one. -/
theorem exists_canonical {significand exponent : Nat} (below : significand < 2 ^ 53)
    (small : exponent ≤ 2045) : ∃ significand' exponent', Canonical significand' exponent' ∧
      significand' <<< exponent' = significand <<< exponent := by
  induction exponent generalizing significand with
  | zero => exact ⟨significand, 0, canonical_iff.mpr ⟨below, .inr rfl, small⟩, rfl⟩
  | succ exponent ih =>
    rcases Nat.lt_or_ge significand (2 ^ 52) with short | full
    · obtain ⟨significand', exponent', canonical, same⟩ :=
        @ih (2 * significand) (by omega) (by omega)
      refine ⟨significand', exponent', canonical, same.trans ?_⟩
      rw [Nat.shiftLeft_eq, Nat.shiftLeft_eq, pow_succ]
      ring
    · exact ⟨significand, exponent + 1, canonical_iff.mpr ⟨below, .inl full, small⟩, rfl⟩

/-- **A count of units with at most 53 binary digits is a magnitude.** -/
theorem exists_finite_shift (negative : Bool) (significand exponent : Nat)
    (below : significand < 2 ^ 53) (small : exponent ≤ 2045) :
    ∃ x : Binary64, x.isFinite = true ∧ x.negative = negative ∧
      x.magnitude = significand <<< exponent := by
  obtain ⟨significand', exponent', canonical, same⟩ := exists_canonical below small
  exact ⟨.finite negative significand' exponent' canonical, rfl, rfl, same⟩

theorem exists_finite_natCast (negative : Bool) (number : Nat) (small : number ≤ 2 ^ 53) :
    ∃ x : Binary64, x.isFinite = true ∧ x.toRat = signedRat negative number := by
  have whole : ∀ significand exponent : Nat, significand < 2 ^ 53 → exponent ≤ 971 →
      significand * 2 ^ exponent = number →
        ∃ x : Binary64, x.isFinite = true ∧ x.toRat = signedRat negative number := by
    intro significand exponent below short same
    obtain ⟨x, finite, sign, magnitude⟩ :=
      exists_finite_shift negative significand (1074 + exponent) below (by omega)
    refine ⟨x, finite, ?_⟩
    rw [toRat_eq, sign, magnitude, Nat.shiftLeft_eq, pow_add, Nat.mul_left_comm, same,
      ← unitsPerOne_eq, Nat.cast_mul, mul_div_cancel_left₀ _ unitsPerOne_cast_pos.ne']
  rcases Nat.lt_or_eq_of_le small with below | rfl
  · exact whole number 0 below (by omega) (Nat.mul_one number)
  · exact whole (2 ^ 52) 1 (by decide) (by omega) (by decide)

/-- **Whole numbers up to `2 ^ 53` are kept.** -/
theorem toRat_rounded_intCast {number : ℤ} (small : |number| ≤ 2 ^ 53) :
    (rounded number).isFinite = true ∧ (rounded number).toRat = number := by
  obtain ⟨x, finite, same⟩ := exists_finite_natCast (decide ((number : ℚ) < 0))
    number.natAbs (by rw [Int.abs_eq_natAbs] at small; exact_mod_cast small)
  rw [Nat.cast_natAbs, Int.cast_abs, signedRat_abs] at same
  rw [← same]
  exact toRat_rounded_toRat finite

/-! ## What rounds to zero -/

/-- The significand of the unit is odd. -/
theorem significand_of_magnitude_one (unit : x.magnitude = 1) : x.significand = 1 := by
  match x, unit with
  | .finite _ significand exponent _, unit =>
    have shifted : significand <<< exponent = 1 := unit
    rw [Nat.shiftLeft_eq] at shifted
    exact Nat.eq_one_of_mul_eq_one_right shifted

/-- There is a unit of either sign. -/
theorem exists_unit (negative : Bool) :
    ∃ unit : Binary64, unit.isFinite = true ∧ unit.toRat = signedRat negative (2 * halfUnit) := by
  obtain ⟨unit, finite, sign, magnitude⟩ :=
    exists_finite_shift negative 1 0 (by decide) (Nat.zero_le _)
  refine ⟨unit, finite, ?_⟩
  rw [toRat_eq, sign, magnitude, two_mul_halfUnit]
  rfl

theorem abs_zero_sub (value : ℚ) : |0 - value| = |value| := by
  rw [zero_sub]
  exact abs_eq_abs.mpr (.inr rfl)

section RoundsToZero

variable {value : ℚ} (rounds : RoundsTo value x)
include rounds

/-- What rounds to zero is no farther from it than from the unit. -/
theorem RoundsTo.abs_le_halfUnit (vanishes : x.Vanishes) : |value| ≤ halfUnit := by
  have positive := halfUnit_pos
  rcases rounds with ⟨-, finite, nearest, -⟩ | ⟨-, infinite⟩
  · obtain ⟨unit, unitFinite, isUnit⟩ := exists_unit (decide (value < 0))
    have nearer := nearest unit unitFinite
    rw [(vanishes_iff_toRat finite).mp vanishes, abs_zero_sub] at nearer
    by_cases negative : value < 0
    · rw [decide_eq_true negative, signedRat, if_pos rfl] at isUnit
      rw [abs_of_neg negative] at nearer ⊢
      rcases abs_cases (unit.toRat - value) with ⟨same, -⟩ | ⟨same, -⟩ <;> linarith
    · rw [decide_eq_false negative, signedRat, if_neg Bool.false_ne_true] at isUnit
      rw [abs_of_nonneg (not_lt.mp negative)] at nearer ⊢
      rcases abs_cases (unit.toRat - value) with ⟨same, -⟩ | ⟨same, -⟩ <;> linarith
  · rw [infinite] at vanishes
    cases vanishes.1

/-- Half a unit lies between zero and the unit, of which zero has the even significand. -/
theorem RoundsTo.vanishes (small : |value| ≤ halfUnit) : x.Vanishes := by
  have positive := halfUnit_pos
  rcases rounds with ⟨-, finite, nearest, even⟩ | ⟨outside, -⟩
  · by_contra nonzero
    have large := two_mul_halfUnit_le_abs finite nonzero
    have nearer := nearest 0 vanishes_zero.1
    rw [toRat_zero, abs_zero_sub] at nearer
    have apart := abs_sub_abs_le_abs_sub x.toRat value
    have unit : |x.toRat| = 2 * halfUnit := by linarith
    have tie : |x.toRat - value| = |(0 : Binary64).toRat - value| := by
      rw [toRat_zero, abs_zero_sub]
      linarith
    have other : (0 : Binary64).toRat ≠ x.toRat := by
      intro zero
      rw [← zero, toRat_zero, abs_zero] at unit
      linarith
    have one : x.magnitude = 1 := by
      rw [abs_toRat, two_mul_halfUnit, div_left_inj' unitsPerOne_cast_pos.ne'] at unit
      exact_mod_cast unit
    have isEven := even 0 vanishes_zero.1 other tie
    rw [significand_of_magnitude_one one] at isEven
    cases isEven
  · linarith [halfUnit_lt_one, two_pow_le_overflowBound (Nat.zero_le 1023)]

/-- **A number rounds to zero just when it is half a unit at most.** -/
theorem RoundsTo.vanishes_iff : x.Vanishes ↔ |value| ≤ halfUnit :=
  ⟨rounds.abs_le_halfUnit, rounds.vanishes⟩

end RoundsToZero

/-- What rounds to zero is half a unit at most. -/
theorem Alike.abs_le_halfUnit {value : ℚ} (alike : Alike x (rounded value))
    (vanishes : x.Vanishes) : |value| ≤ halfUnit :=
  (roundsTo_rounded value).abs_le_halfUnit (alike.vanishes_iff.mp vanishes)

/-- A dividend that is lost in a quotient is small beside its divisor. -/
theorem abs_le_of_div_vanishes (xFinite : x.isFinite = true) (yFinite : y.isFinite = true)
    (nonzero : ¬ y.Vanishes) (vanishes : (x / y).Vanishes) :
    |x.toRat| ≤ |y.toRat| * halfUnit := by
  have positive : 0 < |y.toRat| := abs_pos.mpr fun zero =>
    nonzero ((vanishes_iff_toRat yFinite).mpr zero)
  have small := (div_alike xFinite yFinite nonzero).abs_le_halfUnit vanishes
  rwa [abs_div, div_le_iff₀ positive, mul_comm] at small

/-! ## Whole numbers -/

theorem ofInt_eq_rounded (number : ℤ) : ofInt number = rounded number := by
  rw [ofInt, rounded, Rat.num_intCast, Rat.den_intCast]
  congr 1
  exact decide_eq_decide.mpr Int.cast_lt_zero.symm

/-- An integer is changed by one part in `2 ^ 53` at most. -/
theorem abs_toRat_ofInt_sub_le {number : ℤ} (finite : (ofInt number).isFinite = true) :
    |(ofInt number).toRat - number| ≤ |(number : ℚ)| / 2 ^ 53 := by
  rw [ofInt_eq_rounded] at finite ⊢
  refine abs_toRat_rounded_sub_le_part finite ?_
  rcases eq_or_ne number 0 with rfl | nonzero
  · exact .inl Int.cast_zero
  · right
    have one : (1 : ℚ) ≤ |(number : ℚ)| := by exact_mod_cast Int.one_le_abs nonzero
    exact (div_le_one_of_le₀ (one_le_pow₀ one_le_two) (by positivity)).trans one

/-- A numeral stands for the number that it writes. -/
theorem toRat_ofNat (number : Nat) (small : number ≤ 2 ^ 53) :
    (OfNat.ofNat number : Binary64).isFinite = true ∧
      (OfNat.ofNat number : Binary64).toRat = number := by
  have written : (OfNat.ofNat number : Binary64) = rounded (number : ℤ) := ofInt_eq_rounded number
  rw [written]
  have exact := @toRat_rounded_intCast number
    (by rw [abs_of_nonneg (Int.natCast_nonneg number)]; exact_mod_cast small)
  rwa [Int.cast_natCast] at exact ⊢

/-- The whole numbers are the finite ones with a whole exact value. -/
theorem isWhole_iff : x.isWhole = true ↔ x.isFinite = true ∧ ∃ number : ℤ, x.toRat = number := by
  rw [isWhole, Bool.and_eq_true, beq_iff_eq, ← Nat.dvd_iff_mod_eq_zero]
  refine and_congr_right fun finite => ?_
  rw [← natAbs_units, ← Int.natCast_dvd]
  constructor
  · rintro ⟨number, same⟩
    refine ⟨number, ?_⟩
    rw [toRat, same, Int.cast_mul, Int.cast_natCast,
      mul_div_cancel_left₀ _ unitsPerOne_cast_pos.ne']
  · rintro ⟨number, same⟩
    refine ⟨number, ?_⟩
    rw [toRat, div_eq_iff unitsPerOne_cast_pos.ne', mul_comm] at same
    exact_mod_cast same

/-- **Whole numbers add up exactly as far as `2 ^ 53`.** -/
theorem add_whole (xWhole : x.isWhole = true) (yWhole : y.isWhole = true)
    (small : |x.toRat + y.toRat| ≤ 2 ^ 53) :
    (x + y).isWhole = true ∧ (x + y).toRat = x.toRat + y.toRat := by
  obtain ⟨xFinite, number, xSame⟩ := isWhole_iff.mp xWhole
  obtain ⟨yFinite, number', ySame⟩ := isWhole_iff.mp yWhole
  have alike := add_alike xFinite yFinite
  rw [xSame, ySame, ← Int.cast_add] at alike small ⊢
  obtain ⟨finite, same⟩ := @toRat_rounded_intCast (number + number') (by exact_mod_cast small)
  rw [isWhole_iff, alike.isFinite_eq, alike.toRat_eq, same]
  exact ⟨⟨finite, _, rfl⟩, rfl⟩

/-- **Large numbers are whole.** -/
theorem isWhole_of_large (finite : x.isFinite = true) (large : 2 ^ 52 ≤ |x.toRat|) :
    x.isWhole = true := by
  have shifted : ∀ count : Nat, count <<< 1074 = count * unitsPerOne := fun count =>
    (Nat.mul_one _).symm.trans (shiftLeft_mul count 1074 1)
  rw [isWhole, finite, Bool.true_and, beq_iff_eq]
  rcases magnitude_grid x 1074 with ⟨multiple, onGrid⟩ | ⟨-, short⟩
  · rw [onGrid, shifted, Nat.mul_mod_left]
  · rw [abs_toRat, le_div_iff₀ unitsPerOne_cast_pos] at large
    rw [shifted] at short
    exact absurd (by exact_mod_cast large) (Nat.not_le.mpr short)

/-! ## Doubling -/

/-- A magnitude doubled several times is a magnitude, if it is not too large. -/
theorem exists_finite_doubled (finite : x.isFinite = true) {count : Nat} (few : count ≤ 2045)
    (inside : x.magnitude * 2 ^ count < overflowCount) :
    ∃ y : Binary64, y.isFinite = true ∧ y.negative = x.negative ∧
      y.magnitude = x.magnitude * 2 ^ count := by
  match x, finite with
  | .finite negative significand exponent canonical, _ =>
    obtain ⟨below, leading, -⟩ := canonical_iff.mp canonical
    have scaled : (significand <<< exponent) * 2 ^ count = significand <<< (exponent + count) := by
      rw [Nat.shiftLeft_eq, Nat.shiftLeft_eq, pow_add, Nat.mul_assoc]
    change (significand <<< exponent) * 2 ^ count < overflowCount at inside
    show ∃ y : Binary64, y.isFinite = true ∧ y.negative = negative ∧
      y.magnitude = (significand <<< exponent) * 2 ^ count
    rw [scaled] at inside ⊢
    have short : exponent + count ≤ 2045 := by
      by_contra long
      have full := leading.resolve_right (by omega)
      have large : 2 ^ 52 <<< 2046 ≤ significand <<< (exponent + count) :=
        (shiftLeft_mono _ (Nat.not_le.mp long)).trans (by
          rw [Nat.shiftLeft_eq, Nat.shiftLeft_eq]
          exact Nat.mul_le_mul_right _ full)
      exact absurd inside (Nat.not_lt.mpr ((overflowCount_le rfl).trans large))
    exact exists_finite_shift negative _ _ below short

/-- A number doubled several times is a number, if it is not too large. -/
theorem exists_toRat_doubled (finite : x.isFinite = true) {count : Nat} (few : count ≤ 2045)
    (inside : 2 ^ count * |x.toRat| < overflowBound) :
    ∃ y : Binary64, y.isFinite = true ∧ y.toRat = 2 ^ count * x.toRat := by
  rw [abs_toRat, ← overflowCount_div, ← mul_div_assoc,
    div_lt_div_iff_of_pos_right unitsPerOne_cast_pos, mul_comm] at inside
  obtain ⟨y, yFinite, sign, magnitude⟩ :=
    exists_finite_doubled finite few (by exact_mod_cast inside)
  refine ⟨y, yFinite, ?_⟩
  rw [toRat_eq, toRat_eq x, sign, magnitude, Nat.cast_mul, Nat.cast_pow, Nat.cast_ofNat]
  cases x.negative <;> simp only [signedRat, if_true, Bool.false_eq_true, if_false] <;> ring

/-- **Doubling is exact**, once or several times, as long as it stays finite. -/
theorem toRat_mul_of_power {power : Binary64} {count : Nat} (isPower : power.toRat = 2 ^ count)
    (few : count ≤ 2045) (finite : (power * x).isFinite = true) :
    (power * x).toRat = 2 ^ count * x.toRat := by
  obtain ⟨powerFinite, xFinite⟩ := isFinite_of_mul finite
  have alike := mul_alike powerFinite xFinite
  rw [alike.isFinite_iff, isPower, abs_mul, abs_of_pos (pow_pos two_pos _)] at finite
  obtain ⟨y, yFinite, same⟩ := exists_toRat_doubled xFinite few finite
  rw [alike.toRat_eq, isPower, ← same]
  exact (toRat_rounded_toRat yFinite).2

theorem isFinite_fourfold_iff (finite : x.isFinite = true) :
    (4 * x).isFinite = true ↔ 4 * |x.toRat| < overflowBound := by
  obtain ⟨fourFinite, four⟩ := toRat_ofNat 4 (by decide)
  rw [(mul_alike fourFinite finite).isFinite_iff, four, abs_mul, Nat.abs_cast]
  norm_num

/-- A finite fourfold number is exact. -/
theorem toRat_fourfold (fourfold : (4 * x).isFinite = true) : (4 * x).toRat = 4 * x.toRat := by
  have isPower : (4 : Binary64).toRat = 2 ^ 2 := (toRat_ofNat 4 (by decide)).2.trans (by norm_num)
  rw [toRat_mul_of_power isPower (by decide) fourfold]
  norm_num

/-- Where the fourfold number is finite, so is the double, and it is exact. -/
theorem isFinite_double (fourfold : (4 * x).isFinite = true) :
    (2 * x).isFinite = true ∧ (2 * x).toRat = 2 * x.toRat := by
  obtain ⟨fourFinite, four⟩ := toRat_ofNat 4 (by decide)
  obtain ⟨twoFinite, two⟩ := toRat_ofNat 2 (by decide)
  have finite := (isFinite_of_mul fourfold).2
  have doubled : (2 * x).isFinite = true := by
    rw [(mul_alike fourFinite finite).isFinite_iff, four, abs_mul, Nat.abs_cast] at fourfold
    rw [(mul_alike twoFinite finite).isFinite_iff, two, abs_mul, Nat.abs_cast]
    push_cast at fourfold ⊢
    linarith [abs_nonneg x.toRat]
  refine ⟨doubled, ?_⟩
  have isPower : (2 : Binary64).toRat = 2 ^ 1 := two.trans (by norm_num)
  have exact := toRat_mul_of_power isPower (by decide) doubled
  rwa [pow_one] at exact

end Quadratics.Binary64
