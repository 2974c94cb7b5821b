import Quadratics.Proofs.Binary64.Integers
import Quadratics.Proofs.Binary64.Reflections

/-!
# Rounding to few places

A power of ten is a binary64 number up to `10 ^ 22`, since `5 ^ 22` has no more than 53 binary
digits.  Up to so many places the repeated squaring makes no rounding error at all
(`exactlySquared_run`), and the scale is the power of ten itself (`isInteger_placesScale`).

Whatever the scale is, a number rounded to places is a whole number of steps of the last place,
rounded once (`roundTo_alike_steps`).  How far it is from the number is the sum of three errors:
that of the scaling, half a step, and that of the scaling back (`abs_toRat_roundTo_sub_le`).

Rounding to places keeps the sign, also where it overflows.  To three places, what is less than
half a step is rounded to zero and nothing else is (`placeSteps_three_eq_zero_iff`): the scaling
carries no number over that border.
-/

namespace Quadratics.Binary64

set_option autoImplicit false

variable {x y : Binary64} {places count : Nat}

/-! ## The scale -/

/-- Powers of ten are binary64 numbers up to this one. -/
def exactPlaces : Nat := 22

theorem exists_isInteger_tens {power : Nat} (few : power ≤ exactPlaces) :
    ∃ y : Binary64, IsInteger y (10 ^ power) := by
  have fives : (5 : ℤ) ^ power ≤ 2 ^ 53 :=
    (pow_le_pow_right₀ (by norm_num) few).trans (by norm_num [exactPlaces])
  have odd := @IsInteger.ofInt (5 ^ power) (by rwa [abs_of_pos (by positivity)])
  have inside : 2 ^ power * |(Binary64.ofInt (5 ^ power)).toRat| < overflowBound := by
    have room : (2 : ℚ) ^ 76 ≤ overflowBound := two_pow_le_overflowBound (by decide)
    have fivesCast : (5 : ℚ) ^ power ≤ 2 ^ 53 := by exact_mod_cast fives
    have twos : (2 : ℚ) ^ power ≤ 2 ^ 22 := pow_le_pow_right₀ one_le_two few
    rw [odd.exact, Int.cast_pow, Int.cast_ofNat, abs_of_pos (by positivity)]
    calc (2 : ℚ) ^ power * 5 ^ power ≤ 2 ^ 22 * 2 ^ 53 :=
          mul_le_mul twos fivesCast (by positivity) (by positivity)
      _ < 2 ^ 76 := by norm_num
      _ ≤ overflowBound := room
  obtain ⟨y, finite, same⟩ := exists_toRat_doubled odd.finite
    (few.trans (by decide : exactPlaces ≤ 2045)) inside
  refine ⟨y, finite, ?_⟩
  rw [same, odd.exact]
  push_cast
  rw [← mul_pow]
  norm_num

/-- Few powers of ten are multiplied exactly. -/
theorem IsInteger.mul_tens {power more : Nat} (xTens : IsInteger x (10 ^ power))
    (yTens : IsInteger y (10 ^ more)) (few : power + more ≤ exactPlaces) :
    IsInteger (x * y) (10 ^ (power + more)) := by
  obtain ⟨tens, isTens⟩ := exists_isInteger_tens few
  have alike := mul_alike xTens.finite yTens.finite
  rw [xTens.exact, yTens.exact, ← Int.cast_mul, ← pow_add] at alike
  exact isTens.of_exact alike

/-- What holds of the product and the square after some turns, as long as the powers are few. -/
structure ExactlySquared (count bits : Nat) (state : Binary64 × Binary64) : Prop where
  /-- The product is the power of ten that the bits so far select. -/
  product : IsInteger state.1 (10 ^ (count % 2 ^ bits))
  /-- The square is the next power, as long as it may be selected. -/
  square : 2 ^ bits ≤ count → IsInteger state.2 (10 ^ 2 ^ bits)

/-- **After any number of turns the product is exact.** -/
theorem exactlySquared_run (few : count ≤ exactPlaces) (bits : Nat) :
    ExactlySquared count bits ((List.range bits).foldl (tensStep count) (1, 10)) := by
  have run := @squaring_run (fun power x => IsInteger x (10 ^ power))
    (fun power x => IsInteger x (10 ^ power)) count ?select ?double ?one ?ten bits
  case select =>
    intro power more x y le product square
    exact product.mul_tens square (le.trans few)
  case double =>
    intro power y le square
    exact square.mul_tens square (le.trans few)
  case one =>
    rw [pow_zero]
    exact .ofNat 1 (by decide)
  case ten =>
    rw [pow_one]
    exact .ofNat 10 (by decide)
  exact ⟨run.product, run.square⟩

/-- **Up to twenty-two places the scale is exactly its power of ten.** -/
theorem isInteger_placesScale (few : places ≤ exactPlaces) :
    IsInteger (placesScale places) (10 ^ places) := by
  have product := (exactlySquared_run few 32).product
  rw [Nat.mod_eq_of_lt (few.trans_lt (by decide)), ← squaredTens_eq] at product
  rwa [placesScale_eq (few.trans (by decide))]

theorem toRat_placesScale (few : places ≤ exactPlaces) :
    (placesScale places).toRat = 10 ^ places :=
  (isInteger_placesScale few).exact.trans (by push_cast; rfl)

/-! ## Steps of the last place -/

/-- Rounding away from zero moves a number by half at most. -/
theorem abs_roundedAway_sub_le (value : ℚ) : |(roundedAway value : ℚ) - value| ≤ 1 / 2 := by
  have lower := Int.floor_le (|value| + 1 / 2)
  have upper := Int.lt_floor_add_one (|value| + 1 / 2)
  rw [roundedAway]
  split
  · rename_i below
    rw [abs_of_neg below] at *
    rw [abs_le, Int.cast_neg]
    constructor <;> linarith
  · rename_i notBelow
    rw [abs_of_nonneg (not_lt.mp notBelow)] at *
    rw [abs_le]
    constructor <;> linarith

/-- How many steps of the last place a number is rounded to. -/
def placeSteps (x : Binary64) (places : Nat) : ℤ :=
  roundedAway (x * placesScale places).toRat

/-- Scaling up is finite where rounding to places is. -/
theorem isFinite_scaled (finite : (x.roundTo places).isFinite = true) :
    (x * placesScale places).isFinite = true := by
  rw [roundTo, isFinite_add_zero] at finite
  exact isFinite_of_round (isFinite_of_div finite)

/-- Every number is small beside the inverse of half a unit. -/
theorem halfUnit_mul_toRat_le (finite : x.isFinite = true) : halfUnit * x.toRat ≤ 1 / 2 ^ 51 := by
  have below := (le_abs_self _).trans (abs_toRat_lt finite).le
  rw [mul_comm]
  exact (mul_le_mul_of_nonneg_right below halfUnit_pos.le).trans overflowBound_mul_halfUnit_le

section AnyScale

variable (finite : (x.roundTo places).isFinite = true)
include finite

/-- **A number rounded to places is a number of steps, rounded once.** -/
theorem roundTo_alike_steps (nonzero : ¬ (placesScale places).Vanishes) :
    Alike (x.roundTo places) (rounded (placeSteps x places / (placesScale places).toRat)) := by
  have scaled := isFinite_scaled finite
  have steps := IsInteger.round scaled
  have alike := div_alike steps.finite (isFinite_of_mul scaled).2 nonzero
  rw [steps.exact] at alike
  exact (alike_add_zero _).trans alike

/-- The steps are near the number of steps that the number is. -/
theorem abs_placeSteps_sub_le :
    |(placeSteps x places : ℚ) - x.toRat * (placesScale places).toRat| ≤
      |x.toRat * (placesScale places).toRat| / 2 ^ 53 + (1 / 2 + halfUnit) := by
  have scaledFinite := isFinite_scaled finite
  obtain ⟨xFinite, scaleFinite⟩ := isFinite_of_mul scaledFinite
  have scaled := (mul_alike xFinite scaleFinite).abs_sub_le scaledFinite
  have half := abs_roundedAway_sub_le (x * placesScale places).toRat
  have parts := abs_sub_le (placeSteps x places : ℚ) (x * placesScale places).toRat
    (x.toRat * (placesScale places).toRat)
  rw [placeSteps] at parts ⊢
  linarith

/-- **Rounding to places moves a number by half a step of the last place and little more**, a few
parts in `2 ^ 53` of the number.  The scale counts the steps that make up one. -/
theorem abs_toRat_roundTo_sub_le (scaleLarge : 1 ≤ (placesScale places).toRat) :
    |(x.roundTo places).toRat - x.toRat| * (placesScale places).toRat ≤
      5 * (|x.toRat| * (placesScale places).toRat / 2 ^ 54) + (1 / 2 + 1 / 2 ^ 40) := by
  have scaleFinite := (isFinite_of_mul (isFinite_scaled finite)).2
  have nonzero := placesScale_nonzero scaleFinite scaleLarge
  have steps := abs_placeSteps_sub_le finite
  have back := (roundTo_alike_steps finite nonzero).abs_sub_le finite
  have tiny := halfUnit_mul_toRat_le scaleFinite
  generalize (placesScale places).toRat = scale at *
  have positive : 0 < scale := zero_lt_one.trans_le scaleLarge
  have tinyToo : halfUnit ≤ 1 / 2 ^ 51 :=
    (le_mul_of_one_le_right halfUnit_pos.le scaleLarge).trans tiny
  replace back := mul_le_mul_of_nonneg_right back positive.le
  have size := abs_sub_abs_le_abs_sub (placeSteps x places : ℚ) (x.toRat * scale)
  rw [abs_div, abs_of_pos positive, add_mul, div_right_comm, div_mul_cancel₀ _ positive.ne'] at back
  rw [abs_mul, abs_of_pos positive] at steps size
  have apart : |(x.roundTo places).toRat - x.toRat| * scale ≤
      |(x.roundTo places).toRat - placeSteps x places / scale| * scale +
        |(placeSteps x places : ℚ) - x.toRat * scale| := by
    have parts := mul_le_mul_of_nonneg_right (abs_sub_le (x.roundTo places).toRat
      (placeSteps x places / scale) x.toRat) positive.le
    have split : |(placeSteps x places : ℚ) / scale - x.toRat| * scale =
        |(placeSteps x places : ℚ) - x.toRat * scale| := by
      rw [← abs_of_pos positive, ← abs_mul, abs_of_pos positive, sub_mul,
        div_mul_cancel₀ _ positive.ne']
    rwa [add_mul, split] at parts
  have unsigned : 0 ≤ |x.toRat| * scale := by positivity
  generalize |x.toRat| * scale = scaled at *
  generalize halfUnit * scale = tinyScaled at *
  generalize |(placeSteps x places : ℚ)| = stepsSize at *
  norm_num at *
  linarith

end AnyScale

/-- Scaling up is one rounding. -/
theorem scaled_alike (few : places ≤ exactPlaces) (finite : (x.roundTo places).isFinite = true) :
    Alike (x * placesScale places) (rounded (x.toRat * 10 ^ places)) := by
  have alike := mul_alike (isFinite_of_mul (isFinite_scaled finite)).1
    (isInteger_placesScale few).finite
  rwa [toRat_placesScale few] at alike

/-- To few places, the steps are exact. -/
theorem roundTo_alike (few : places ≤ exactPlaces) (finite : (x.roundTo places).isFinite = true) :
    Alike (x.roundTo places) (rounded (placeSteps x places / 10 ^ places)) := by
  have nonzero := (isInteger_placesScale few).not_vanishes (by positivity)
  have alike := roundTo_alike_steps finite nonzero
  rwa [toRat_placesScale few] at alike

/-- **Rounding at no places gives the nearest integer.** -/
theorem isInteger_roundTo_zero (finite : x.isFinite = true) :
    IsInteger (x.roundTo 0) (roundedAway x.toRat) := by
  have roundFinite := isFinite_roundTo_zero finite
  have scaled := mul_alike finite IsInteger.placesScale_zero.finite
  have same : (x * placesScale 0).toRat = x.toRat := by
    rw [scaled.toRat_eq, IsInteger.placesScale_zero.exact, Int.cast_one, mul_one]
    exact (toRat_rounded_toRat finite).2
  have steps := IsInteger.round (isFinite_scaled roundFinite)
  have alike := roundTo_alike (Nat.zero_le exactPlaces) roundFinite
  rw [pow_zero, div_one, placeSteps] at alike
  rw [same] at steps alike
  exact steps.of_exact alike

/-- Ten to few places is small beside the inverse of half a unit. -/
theorem halfUnit_mul_tens_le (few : places ≤ exactPlaces) :
    halfUnit * 10 ^ places ≤ 1 / 2 ^ 50 := by
  rw [← toRat_placesScale few]
  refine (halfUnit_mul_toRat_le (isInteger_placesScale few).finite).trans ?_
  exact one_div_le_one_div_of_le (by positivity) (pow_le_pow_right₀ one_le_two (by decide))

/-- **Rounding a number with few digits moves it by less than a step** of the last place, or of a
coarser one. -/
theorem abs_toRat_roundTo_sub_le_of_small {finer : Nat} (coarse : places ≤ finer)
    (few : finer ≤ exactPlaces) (finite : (x.roundTo finer).isFinite = true)
    (small : |x.toRat| * 10 ^ places ≤ 2 ^ 50) :
    |(x.roundTo finer).toRat - x.toRat| * 10 ^ places ≤ 27 / 32 := by
  have tens : (0 : ℚ) < 10 ^ finer := by positivity
  have ratio : (10 : ℚ) ^ places / 10 ^ finer ≤ 1 :=
    div_le_one_of_le₀ (pow_le_pow_right₀ (by norm_num) coarse) tens.le
  have scaled := toRat_placesScale few
  have moved := abs_toRat_roundTo_sub_le finite (scaled.symm ▸ one_le_pow₀ (by norm_num))
  rw [scaled] at moved
  have nonneg : (0 : ℚ) ≤ 10 ^ places / 10 ^ finer := by positivity
  have error := mul_le_mul_of_nonneg_right moved nonneg
  rw [mul_assoc, mul_div_cancel₀ _ tens.ne'] at error
  refine error.trans ?_
  calc (5 * (|x.toRat| * 10 ^ finer / 2 ^ 54) + (1 / 2 + 1 / 2 ^ 40)) * (10 ^ places / 10 ^ finer)
      = 5 * (|x.toRat| * 10 ^ places / 2 ^ 54) +
          (1 / 2 + 1 / 2 ^ 40) * (10 ^ places / 10 ^ finer) := by
        field_simp
    _ ≤ 27 / 32 := by
        norm_num at small ⊢
        linarith

/-! ## Signs -/

theorem roundedAway_nonneg {value : ℚ} (unsigned : 0 ≤ value) : 0 ≤ roundedAway value := by
  rw [roundedAway, if_neg (not_lt.mpr unsigned)]
  exact Int.floor_nonneg.mpr (by positivity)

/-- Only what is less than a half is rounded to zero. -/
theorem roundedAway_eq_zero_iff {value : ℚ} : roundedAway value = 0 ↔ |value| < 1 / 2 := by
  have unsigned : (0 : ℚ) ≤ |value| + 1 / 2 := by positivity
  have isZero : ⌊|value| + 1 / 2⌋ = 0 ↔ |value| < 1 / 2 := by
    rw [Int.floor_eq_zero_iff, Set.mem_Ico, and_iff_right unsigned]
    constructor <;> intro less <;> linarith
  rw [← isZero, roundedAway]
  split
  · exact neg_eq_zero
  · rfl

theorem toRat_roundTo_nonneg (few : places ≤ exactPlaces)
    (finite : (x.roundTo places).isFinite = true) (unsigned : 0 ≤ x.toRat) :
    0 ≤ (x.roundTo places).toRat := by
  have scaled := (scaled_alike few finite).toRat_nonneg (isFinite_scaled finite) (by positivity)
  have steps : (0 : ℚ) ≤ placeSteps x places := by exact_mod_cast roundedAway_nonneg scaled
  exact (roundTo_alike few finite).toRat_nonneg finite (by positivity)

theorem negative_eq_false_of_toRat_pos (positive : 0 < x.toRat) : x.negative = false := by
  by_contra signed
  rw [Bool.not_eq_false] at signed
  have unsigned := toRat_nonneg ((negative_neg x).trans (congrArg (!·) signed))
  rw [toRat_neg] at unsigned
  linarith

theorem infinity_div (finite : x.isFinite = true) (unsigned : x.negative = false) :
    (infinity false).round / x + 0 = infinity false := by
  cases x with
  | finite negative significand exponent canonical =>
    cases unsigned
    rfl
  | infinity negative => cases finite
  | nan negative => cases finite

/-- A positive number that overflows when it is rounded to places becomes an infinity. -/
theorem roundTo_of_overflow (few : places ≤ exactPlaces) (finite : x.isFinite = true)
    (positive : 0 < x.toRat) (overflows : (x.roundTo places).isFinite = false) :
    x.roundTo places = .infinity false := by
  have scaleFinite := (isInteger_placesScale few).finite
  have scale := toRat_placesScale few
  have scalePositive : 0 < (placesScale places).toRat := by
    rw [scale]
    positivity
  have tooLarge : (x * placesScale places).isFinite = false := by
    by_contra fits
    rw [isFinite_roundTo scaleFinite (scale.symm ▸ one_le_pow₀ (by norm_num))
      (Bool.eq_true_of_not_eq_false fits)] at overflows
    cases overflows
  have scaled :=
    (mul_alike finite scaleFinite).eq_infinity tooLarge (mul_pos positive scalePositive)
  rw [roundTo, scaled]
  exact infinity_div scaleFinite (negative_eq_false_of_toRat_pos scalePositive)

/-- **A positive number stays positive, if anything is left of it.** -/
theorem roundTo_pos (few : places ≤ exactPlaces) (finite : x.isFinite = true)
    (positive : 0 < x.toRat) (nonzero : ¬ (x.roundTo places).Vanishes) :
    0 < x.roundTo places := by
  cases fits : (x.roundTo places).isFinite with
  | true =>
    rw [vanishes_iff_toRat fits] at nonzero
    rw [lt_iff_toRat vanishes_zero.1 fits, toRat_zero]
    exact lt_of_le_of_ne (toRat_roundTo_nonneg few fits positive.le) (Ne.symm nonzero)
  | false =>
    rw [roundTo_of_overflow few finite positive fits]
    decide

/-! ## What is rounded to zero -/

/-- A number of steps is rounded to zero just where there are none. -/
theorem toRat_roundTo_eq_zero_iff (few : places ≤ exactPlaces)
    (finite : (x.roundTo places).isFinite = true) :
    (x.roundTo places).toRat = 0 ↔ placeSteps x places = 0 := by
  have alike := roundTo_alike few finite
  constructor
  · intro zero
    have small := alike.abs_le_halfUnit ((vanishes_iff_toRat finite).mpr zero)
    rw [abs_div, abs_of_pos (by positivity : (0 : ℚ) < 10 ^ places),
      div_le_iff₀ (by positivity)] at small
    have none : |(placeSteps x places : ℚ)| < 1 :=
      (small.trans (halfUnit_mul_tens_le few)).trans_lt (by norm_num)
    exact Int.abs_lt_one_iff.mp (by exact_mod_cast none)
  · intro none
    rw [none, Int.cast_zero, zero_div] at alike
    exact alike.toRat_eq.trans (alike_rounded_zero.toRat_eq.symm.trans toRat_zero)

/-- Short binary fractions are binary64 numbers. -/
theorem exists_toRat_binary {significand bits : Nat} (short : significand < 2 ^ 53)
    (few : bits ≤ 1074) :
    ∃ y : Binary64, y.isFinite = true ∧ y.toRat = significand / 2 ^ bits := by
  obtain ⟨y, finite, sign, magnitude⟩ :=
    exists_finite_shift false significand (1074 - bits) short (by omega)
  refine ⟨y, finite, ?_⟩
  have split : (2 : ℚ) ^ 1074 = 2 ^ (1074 - bits) * 2 ^ bits := by
    rw [← pow_add, Nat.sub_add_cancel few]
  rw [toRat_eq, sign, magnitude, Nat.shiftLeft_eq, unitsPerOne_cast, split]
  push_cast
  show (significand : ℚ) * 2 ^ (1074 - bits) / _ = _
  rw [mul_comm (significand : ℚ), mul_div_mul_left _ _ (by positivity)]

/-- **Below half of a thousandth there is a gap**: the next number is so far below that its
thousandfold is nearer to the number below a half than to the half. -/
theorem abs_toRat_mul_thousand_le (small : |x.toRat| < 1 / 2000) :
    |x.toRat| * 1000 ≤ (2 ^ 53 - 1 : Nat) / 2 ^ 54 := by
  rw [abs_toRat, unitsPerOne_cast] at small ⊢
  have split : (2 : ℚ) ^ 1074 = 2 ^ 1011 * 2 ^ 63 := by rw [← pow_add]
  rcases magnitude_grid x 1011 with ⟨multiple, onGrid⟩ | ⟨-, short⟩
  · have counted : (x.magnitude : ℚ) / 2 ^ 1074 = multiple / 2 ^ 63 := by
      rw [onGrid, Nat.shiftLeft_eq, Nat.cast_mul, Nat.cast_pow, Nat.cast_ofNat, split,
        mul_comm (multiple : ℚ), mul_div_mul_left _ _ (by positivity)]
    rw [counted] at small ⊢
    have few : multiple ≤ 4611686018427387 := by
      rw [div_lt_div_iff₀ (by positivity) (by norm_num)] at small
      have count : multiple * 2000 < 2 ^ 63 := by exact_mod_cast small.trans_eq (one_mul _)
      omega
    have fewCast : (multiple : ℚ) ≤ 4611686018427387 := by exact_mod_cast few
    norm_num
    linarith
  · have below : (x.magnitude : ℚ) / 2 ^ 1074 ≤ 2 ^ 52 / 2 ^ 63 := by
      have shortCast := (Nat.cast_lt (α := ℚ)).mpr short
      rw [Nat.shiftLeft_eq, Nat.cast_mul, Nat.cast_pow, Nat.cast_pow, Nat.cast_ofNat] at shortCast
      rw [split, mul_comm ((2 : ℚ) ^ 1011), ← div_div]
      refine div_le_of_le_mul₀ (by positivity) (by positivity) ?_
      rw [div_mul_eq_mul_div]
      exact div_le_div_of_nonneg_right shortCast.le (by positivity)
    norm_num at below ⊢
    linarith

/-- **To three places, just what is less than half a thousandth is rounded to zero.** -/
theorem placeSteps_three_eq_zero_iff (finite : (x.roundTo 3).isFinite = true) :
    placeSteps x 3 = 0 ↔ |x.toRat| < 1 / 2000 := by
  have alike := scaled_alike (by decide) finite
  have roundFinite := alike.isFinite_eq.symm.trans (isFinite_scaled finite)
  rw [placeSteps, roundedAway_eq_zero_iff, alike.toRat_eq]
  have scaled : |x.toRat * 10 ^ 3| = |x.toRat| * 1000 := by
    rw [abs_mul]
    norm_num
  constructor
  · intro less
    by_contra large
    obtain ⟨half, halfFinite, isHalf⟩ := @exists_toRat_binary 1 1 (by decide) (by decide)
    have above : half.toRat ≤ |x.toRat * 10 ^ 3| := by
      rw [scaled, isHalf]
      norm_num at large ⊢
      linarith
    have kept := le_abs_toRat_rounded halfFinite roundFinite above
    rw [isHalf] at kept
    norm_num at kept less
    linarith
  · intro small
    obtain ⟨below, belowFinite, isBelow⟩ :=
      @exists_toRat_binary (2 ^ 53 - 1) 54 (by decide) (by decide)
    have gap : |x.toRat * 10 ^ 3| ≤ below.toRat := by
      rw [scaled, isBelow]
      exact abs_toRat_mul_thousand_le small
    obtain ⟨lower, upper⟩ := abs_le.mp gap
    have kept : |(rounded (x.toRat * 10 ^ 3)).toRat| ≤ below.toRat := by
      refine abs_le.mpr ⟨?_, toRat_rounded_le roundFinite belowFinite upper⟩
      rw [← toRat_neg] at lower ⊢
      exact le_toRat_rounded roundFinite ((isFinite_neg _).trans belowFinite) lower
    refine kept.trans_lt ?_
    rw [isBelow]
    norm_num

end Quadratics.Binary64
