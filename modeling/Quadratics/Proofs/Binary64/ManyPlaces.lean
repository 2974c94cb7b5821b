import Quadratics.Proofs.Binary64.FewPlaces

/-!
# Rounding to any number of places

A count of places is read as a word of 32 bits with a sign (`placesWord_cases`), and what
rounding to places does depends on that word alone.

Repeated squaring gives no less than the power of ten with every rounding downward, or an
infinity (`atLeast_squaredTens`), and it is finite just up to `10 ^ 308`
(`isFinite_squaredTens_iff`).  So where the word has no sign, a scale that is finite is one or it
is nine at least, and rounding to places moves a number by half at most and a few parts in
`2 ^ 53` of it (`abs_toRat_roundTo_sub_le_half`).

Where the word has a sign the scale is the inverse of a power of ten, and what is counted are
tens, hundreds and so on.  One is then rounded to zero (`vanishes_roundTo_one`).  Below `-308` the
scale is zero itself, and nothing finite comes of scaling back (`isFinite_roundTo_of_lost`).  So
it is the last 308 counts before the word starts again at which rounding to places moves some
numbers by more than half (`roundTo_within_half_iff`).
-/

namespace Quadratics.Binary64

set_option autoImplicit false

variable {x y : Binary64} {places count : Nat}

/-! ## Powers of ten from below -/

/-- How far one rounding may carry a number of one or more downward. -/
def shrinkage : ℚ :=
  1 - 1 / 2 ^ 53

/-- Ten, with one rounding downward. -/
def loweredTen : ℚ :=
  10 * shrinkage

theorem shrinkage_pos : 0 < shrinkage := by
  rw [shrinkage]
  norm_num

theorem one_le_loweredTen : 1 ≤ loweredTen := by
  rw [loweredTen, shrinkage]
  norm_num

/-- A value is no less than a bound: it is finite and so is its number, or it is infinite. -/
def AtLeast (x : Binary64) (bound : ℚ) : Prop :=
  x = .infinity false ∨ x.isFinite = true ∧ bound ≤ x.toRat

theorem AtLeast.of_isFinite {bound : ℚ} (least : AtLeast x bound) (finite : x.isFinite = true) :
    bound ≤ x.toRat := by
  rcases least with rfl | ⟨-, above⟩
  · cases finite
  · exact above

/-- A finite number of one or more times an infinity. -/
theorem mul_infinity (finite : x.isFinite = true) (above : 1 ≤ x.toRat) :
    x * .infinity false = .infinity false ∧ .infinity false * x = .infinity false := by
  have positive : 0 < x.toRat := zero_lt_one.trans_le above
  have unsigned := negative_eq_false_of_toRat_pos positive
  have nonzero : x.magnitude ≠ 0 := fun zero =>
    positive.ne' ((vanishes_iff_toRat finite).mp ⟨finite, zero⟩)
  match x, finite with
  | .finite negative significand exponent canonical, _ =>
    change negative = false at unsigned
    subst unsigned
    exact ⟨if_neg nonzero, if_neg nonzero⟩

/-- **A product is no less than the product of the bounds, but for one rounding.** -/
theorem AtLeast.mul {xBound yBound : ℚ} (xLeast : AtLeast x xBound) (yLeast : AtLeast y yBound)
    (xAbove : 1 ≤ xBound) (yAbove : 1 ≤ yBound) :
    AtLeast (x * y) (xBound * yBound * shrinkage) := by
  rcases xLeast with rfl | ⟨xFinite, xLe⟩
  · rcases yLeast with rfl | ⟨yFinite, yLe⟩
    · exact .inl rfl
    · exact .inl (mul_infinity yFinite (yAbove.trans yLe)).2
  · rcases yLeast with rfl | ⟨yFinite, yLe⟩
    · exact .inl (mul_infinity xFinite (xAbove.trans xLe)).1
    · have alike := mul_alike xFinite yFinite
      have above : xBound * yBound ≤ x.toRat * y.toRat :=
        mul_le_mul xLe yLe (zero_le_one.trans yAbove) (zero_le_one.trans (xAbove.trans xLe))
      have one : 1 ≤ x.toRat * y.toRat :=
        (one_le_mul_of_one_le_of_one_le xAbove yAbove).trans above
      cases fits : (x * y).isFinite with
      | true =>
        refine .inr ⟨fits, (mul_le_mul_of_nonneg_right above shrinkage_pos.le).trans ?_⟩
        have error := abs_le.mp (alike.abs_sub_le_of_one_le fits one)
        rw [shrinkage]
        linarith [error.1]
      | false => exact .inl (alike.eq_infinity fits (zero_lt_one.trans_le one))

/-- **Repeated squaring gives no less than the power of ten with every rounding downward.** -/
theorem atLeast_squaredTens (short : count < 2 ^ 32) :
    AtLeast (squaredTens count) (loweredTen ^ count) := by
  have shrinkageNonzero := shrinkage_pos.ne'
  have oneLe : ∀ power : Nat, 1 ≤ loweredTen ^ power := fun power => one_le_pow₀ one_le_loweredTen
  have less : shrinkage ≤ 1 := by
    rw [shrinkage]
    norm_num
  have oneLeDiv : ∀ power : Nat, 1 ≤ loweredTen ^ power / shrinkage := fun power =>
    (oneLe power).trans (le_div_self (zero_le_one.trans (oneLe power)) shrinkage_pos less)
  -- A square has one rounding less than its power of ten has factors.  The product that it
  -- becomes a part of takes up that one.
  have run := @squaring_run (fun power x => AtLeast x (loweredTen ^ power))
    (fun power x => AtLeast x (loweredTen ^ power / shrinkage)) count ?select ?double ?one ?ten 32
  case select =>
    intro power more x y _ product square
    have next := product.mul square (oneLe power) (oneLeDiv more)
    rwa [mul_div_assoc', div_mul_cancel₀ _ shrinkageNonzero, ← pow_add] at next
  case double =>
    intro power y _ square
    have next := square.mul square (oneLeDiv power) (oneLeDiv power)
    rwa [← mul_div_assoc, div_mul_cancel₀ _ shrinkageNonzero, div_mul_eq_mul_div, ← pow_add] at next
  case one =>
    obtain ⟨finite, one⟩ := toRat_ofNat 1 (by decide)
    rw [pow_zero]
    exact .inr ⟨finite, (one.trans Nat.cast_one).ge⟩
  case ten =>
    obtain ⟨finite, ten⟩ := toRat_ofNat 10 (by decide)
    rw [pow_one, loweredTen, mul_div_cancel_right₀ _ shrinkageNonzero]
    exact .inr ⟨finite, (ten.trans (by norm_num)).ge⟩
  have product := run.product
  rwa [Nat.mod_eq_of_lt short, ← squaredTens_eq] at product

/-! ## How far the powers go -/

/-- The largest power of ten that is not infinite. -/
def finitePlaces : Nat := 308

theorem le_shrinkage_pow {power : Nat} (few : power ≤ 309) : 9 / 10 ≤ shrinkage ^ power := by
  have powers := one_add_mul_le_pow (by norm_num : (-2 : ℚ) ≤ -(1 / 2 ^ 53)) power
  have fewCast : (power : ℚ) ≤ 309 := by exact_mod_cast few
  rw [← sub_eq_add_neg, ← shrinkage] at powers
  refine le_trans ?_ powers
  norm_num
  linarith

theorem growth_pow_le {power : Nat} (few : power ≤ 309) : growth ^ power ≤ 10 / 9 := by
  have inverse : growth ^ power * shrinkage ^ power ≤ 1 := by
    rw [← mul_pow]
    refine pow_le_one₀ (mul_nonneg growth_pos.le shrinkage_pos.le) ?_
    rw [growth, shrinkage]
    norm_num
  have parts := mul_le_mul_of_nonneg_left (le_shrinkage_pow few) (pow_nonneg growth_pos.le power)
  linarith

/-- Infinities begin between `1.5 * 10 ^ 308` and `2 * 10 ^ 308`. -/
theorem overflowBound_bounds : 3 / 2 * 10 ^ finitePlaces ≤ overflowBound ∧
    overflowBound ≤ 2 * 10 ^ finitePlaces := by
  have fourth : (2 : ℚ) ^ 1024 = (2 ^ 256) ^ 4 := by rw [← pow_mul]
  have tens : (10 : ℚ) ^ finitePlaces = (10 ^ 77) ^ 4 := by rw [← pow_mul, finitePlaces]
  have lower : 23 / 20 * 10 ^ 77 ≤ (2 : ℚ) ^ 256 := by norm_num
  have upper : (2 : ℚ) ^ 256 ≤ 29 / 25 * 10 ^ 77 := by norm_num
  have lowerPow := pow_le_pow_left₀ (by positivity) lower 4
  have upperPow := pow_le_pow_left₀ (by positivity) upper 4
  rw [mul_pow, ← fourth, ← tens] at lowerPow upperPow
  have rounding : (2 : ℚ) ^ 1024 = 2 ^ 970 * 2 ^ 54 := by rw [← pow_add]
  have roundingPos : (0 : ℚ) < 2 ^ 970 := by positivity
  rw [overflowBound]
  clear fourth tens lower upper
  generalize (2 : ℚ) ^ 1024 = limit at *
  generalize (2 : ℚ) ^ 970 = rounded at *
  generalize (10 : ℚ) ^ finitePlaces = largest at *
  norm_num at lowerPow upperPow rounding
  constructor <;> linarith

/-- **Powers of ten are finite up to this one.** -/
theorem isFinite_squaredTens_iff (short : count < 2 ^ 32) :
    (squaredTens count).isFinite = true ↔ count ≤ finitePlaces := by
  obtain ⟨lower, upper⟩ := overflowBound_bounds
  have positive : (0 : ℚ) < 10 ^ finitePlaces := by positivity
  constructor
  · intro finite
    by_contra many
    have least := (atLeast_squaredTens short).of_isFinite finite
    have below := (le_abs_self _).trans_lt (abs_toRat_lt finite)
    have powers : loweredTen ^ 309 ≤ loweredTen ^ count :=
      pow_le_pow_right₀ one_le_loweredTen (not_le.mp many)
    have apart : loweredTen ^ 309 = 10 * 10 ^ finitePlaces * shrinkage ^ 309 := by
      rw [loweredTen, mul_pow]
      exact congrArg (· * _) (pow_succ' 10 308)
    have parts := mul_le_mul_of_nonneg_left (le_shrinkage_pow le_rfl)
      (mul_nonneg (by norm_num : (0 : ℚ) ≤ 10) positive.le)
    linarith
  · intro few
    have powers : roundedTen ^ count ≤ roundedTen ^ finitePlaces :=
      pow_le_pow_right₀ one_le_roundedTen few
    have parts := mul_le_mul_of_nonneg_left (growth_pow_le (by decide : finitePlaces ≤ 309))
      positive.le
    rw [← mul_pow, ← roundedTen] at parts
    have inside : roundedTen ^ count < overflowBound := by linarith
    exact (between_squaredTens inside short).finite

/-! ## Words -/

/-- The word that a count is read as. -/
theorem placesWord_cases (places : Nat) :
    placesWord places = (places % 2 ^ 32 : Nat) ∧ places % 2 ^ 32 < 2 ^ 31 ∨
      placesWord places = (places % 2 ^ 32 : Nat) - 2 ^ 32 ∧ 2 ^ 31 ≤ places % 2 ^ 32 := by
  unfold placesWord
  rw [Nat.one_shiftLeft, Int.bmod_def]
  split
  · exact .inl ⟨by omega, by omega⟩
  · exact .inr ⟨by omega, by omega⟩

theorem placesScale_of_nonneg (unsigned : 0 ≤ placesWord places) :
    placesScale places = squaredTens (placesWord places).natAbs := by
  simp only [placesScale]
  rw [if_neg (not_lt.mpr unsigned)]

theorem placesScale_of_neg (negative : placesWord places < 0) :
    placesScale places = 1 / squaredTens (placesWord places).natAbs := by
  simp only [placesScale]
  rw [if_pos negative]

theorem natAbs_placesWord_lt (places : Nat) : (placesWord places).natAbs < 2 ^ 32 := by
  have below := Nat.mod_lt places (Nat.two_pow_pos 32)
  rcases placesWord_cases places with ⟨same, -⟩ | ⟨same, large⟩ <;> omega

/-- A power of ten above the first is nine at least. -/
theorem nine_le_squaredTens (short : count < 2 ^ 32) (positive : 0 < count)
    (finite : (squaredTens count).isFinite = true) : 9 ≤ (squaredTens count).toRat := by
  have least := (atLeast_squaredTens short).of_isFinite finite
  have first := le_self_pow₀ one_le_loweredTen positive.ne'
  have nine : 9 ≤ loweredTen := by
    rw [loweredTen, shrinkage]
    norm_num
  exact nine.trans (first.trans least)

/-! ## Words without a sign -/

/-- **Rounding to places moves a number by half at most**, and a few parts in `2 ^ 53` of it. -/
theorem abs_toRat_roundTo_sub_le_half (unsigned : 0 ≤ placesWord places)
    (finite : (x.roundTo places).isFinite = true) :
    |(x.roundTo places).toRat - x.toRat| ≤ 1 / 2 + |x.toRat| / 2 ^ 50 := by
  obtain ⟨xFinite, scaleFinite⟩ := isFinite_of_mul (isFinite_scaled finite)
  by_cases none : placesWord places = 0
  · have scale : placesScale places = placesScale 0 := by
      have word : placesWord 0 = 0 := placesWord_eq (by decide)
      rw [placesScale_of_nonneg unsigned, placesScale_of_nonneg word.ge, none, word]
    have same : x.roundTo places = x.roundTo 0 := by
      rw [roundTo, roundTo, scale]
    rw [same, (isInteger_roundTo_zero xFinite).exact]
    exact (abs_roundedAway_sub_le x.toRat).trans (le_add_of_nonneg_right (by positivity))
  · have scaleLarge : 9 ≤ (placesScale places).toRat := by
      rw [placesScale_of_nonneg unsigned] at scaleFinite ⊢
      exact nine_le_squaredTens (natAbs_placesWord_lt places) (Int.natAbs_pos.mpr none) scaleFinite
    have moved := abs_toRat_roundTo_sub_le finite (by linarith)
    have scalePositive : 0 < (placesScale places).toRat := by linarith
    refine le_of_mul_le_mul_right ?_ scalePositive
    have nonneg := mul_nonneg (abs_nonneg x.toRat) scalePositive.le
    rw [add_mul, div_mul_eq_mul_div |x.toRat|]
    generalize |x.toRat| * (placesScale places).toRat = scaled at *
    norm_num at moved ⊢
    linarith

/-! ## Words with a sign -/

/-- Dividing by a zero gives nothing finite. -/
theorem isFinite_div_of_vanishes (vanishes : y.Vanishes) : (x / y).isFinite = false := by
  match x, y, vanishes with
  | .nan _, .finite _ _ _ _, _ => rfl
  | .infinity _, .finite _ _ _ _, _ => rfl
  | .finite _ _ _ _, .finite _ _ _ _, vanishes =>
    show (div _ _).isFinite = false
    rw [div, if_pos vanishes.2]
    split <;> rfl

theorem vanishes_div_infinity (finite : x.isFinite = true) : (x / .infinity false).Vanishes := by
  match x, finite with
  | .finite negative _ _ _, _ =>
    show (ofQuotient (negative != false) 0 1).Vanishes
    exact vanishes_ofQuotient_zero _ Nat.one_pos

/-- **Below a word of `-308` the scale is zero, and nothing is left to scale back by.** -/
theorem isFinite_roundTo_of_lost (lost : placesWord places < -finitePlaces) :
    (x.roundTo places).isFinite = false := by
  have negative : placesWord places < 0 := by omega
  have short := natAbs_placesWord_lt places
  have infinite : squaredTens (placesWord places).natAbs = .infinity false := by
    rcases atLeast_squaredTens short with infinite | ⟨finite, -⟩
    · exact infinite
    · have few := (isFinite_squaredTens_iff short).mp finite
      omega
  have vanishes : (placesScale places).Vanishes := by
    rw [placesScale_of_neg negative, infinite]
    exact vanishes_div_infinity (toRat_ofNat 1 (by decide)).1
  rw [roundTo, isFinite_add_zero]
  exact isFinite_div_of_vanishes vanishes

section Inverse

variable (negative : placesWord places < 0) (few : -finitePlaces ≤ placesWord places)
include negative few

/-- Down to a word of `-308` the scale is less than a half, but not zero. -/
theorem placesScale_small : (placesScale places).isFinite = true ∧
    ¬ (placesScale places).Vanishes ∧ |(placesScale places).toRat| < 1 / 2 := by
  have short := natAbs_placesWord_lt places
  have finite := (isFinite_squaredTens_iff short).mpr (by omega)
  have large := nine_le_squaredTens short (by omega) finite
  rw [placesScale_of_neg negative]
  generalize squaredTens (placesWord places).natAbs = tens at *
  obtain ⟨oneFinite, one⟩ := toRat_ofNat 1 (by decide)
  rw [Nat.cast_one] at one
  have positive : 0 < tens.toRat := by linarith
  have nonzero : ¬ tens.Vanishes := fun vanishes =>
    positive.ne' ((vanishes_iff_toRat finite).mp vanishes)
  have alike := div_alike oneFinite finite nonzero
  rw [one] at alike
  have inverse : 1 / tens.toRat ≤ 1 / 9 := one_div_le_one_div_of_le (by norm_num) large
  have inversePos : 0 < 1 / tens.toRat := one_div_pos.mpr positive
  have product := halfUnit_mul_toRat_le finite
  have scaleFinite : (1 / tens).isFinite = true := by
    rw [alike.isFinite_iff, abs_of_pos inversePos]
    linarith [two_pow_le_overflowBound (Nat.zero_le 1023), pow_zero (2 : ℚ)]
  refine ⟨scaleFinite, fun vanishes => ?_, ?_⟩
  · have small := alike.abs_le_halfUnit vanishes
    rw [abs_of_pos inversePos, div_le_iff₀ positive] at small
    norm_num at product
    linarith
  · have error : |(1 / tens).toRat - 1 / tens.toRat| ≤ |1 / tens.toRat| / 2 ^ 53 + halfUnit :=
      alike.abs_sub_le scaleFinite
    have size := abs_sub_abs_le_abs_sub (1 / tens).toRat (1 / tens.toRat)
    have half : halfUnit ≤ 1 / 2 ^ 51 :=
      (le_mul_of_one_le_right halfUnit_pos.le (by linarith)).trans product
    rw [abs_of_pos inversePos] at error size
    linarith

/-- **Down to a word of `-308` one is rounded to zero**, since it is less than half a ten. -/
theorem vanishes_roundTo_one : ((1 : Binary64).roundTo places).Vanishes := by
  obtain ⟨scaleFinite, nonzero, small⟩ := placesScale_small negative few
  obtain ⟨oneFinite, one⟩ := toRat_ofNat 1 (by decide)
  have scaled := mul_alike oneFinite scaleFinite
  rw [one, Nat.cast_one, one_mul] at scaled
  obtain ⟨finite, same⟩ := toRat_rounded_toRat scaleFinite
  have rounds := IsInteger.round (scaled.isFinite_eq.trans finite)
  rw [scaled.toRat_eq, same, roundedAway_eq_zero_iff.mpr small] at rounds
  have vanishes := (vanishes_iff_toRat rounds.finite).mpr (rounds.exact.trans Int.cast_zero)
  rw [roundTo, (alike_add_zero _).vanishes_iff]
  exact vanishes_div vanishes (isNaN_eq_false scaleFinite) nonzero

end Inverse

/-! ## All counts -/

/-- **Rounding to places moves a number by half at most, but for the last counts of a word.**
The bound allows for a few parts in `2 ^ 53` of the number besides.  It holds of a count of places
just when the remainder of the count by `2 ^ 32` is not one of the last 308. -/
theorem roundTo_within_half_iff (places : Nat) :
    (∀ x : Binary64, x.isFinite = true → (x.roundTo places).isFinite = true →
      |(x.roundTo places).toRat - x.toRat| ≤ 1 / 2 + |x.toRat| / 2 ^ 50) ↔
      places % 2 ^ 32 < 2 ^ 32 - 308 := by
  have words := placesWord_cases places
  have last : finitePlaces = 308 := rfl
  constructor
  · intro within
    by_contra late
    -- One is moved too far: it becomes zero.
    have vanishes := @vanishes_roundTo_one places (by omega) (by omega)
    obtain ⟨oneFinite, one⟩ := toRat_ofNat 1 (by decide)
    have moved := within 1 oneFinite vanishes.1
    rw [(vanishes_iff_toRat vanishes.1).mp vanishes, one] at moved
    norm_num at moved
  · intro early x _ finite
    rcases lt_or_ge (placesWord places) 0 with negative | unsigned
    · rw [@isFinite_roundTo_of_lost x places (by omega)] at finite
      cases finite
    · exact abs_toRat_roundTo_sub_le_half unsigned finite

/-- Seven rounded to `2 ^ 32 - 1` places is ten. -/
theorem roundTo_tens : (7 : Binary64).isFinite = true ∧
    ((7 : Binary64).roundTo 4294967295).isFinite = true ∧
      ¬ |((7 : Binary64).roundTo 4294967295).toRat - (7 : Binary64).toRat| ≤
        1 / 2 + |(7 : Binary64).toRat| / 2 ^ 50 := by
  have ten : (7 : Binary64).roundTo 4294967295 = 10 := by decide +kernel
  obtain ⟨sevenFinite, seven⟩ := toRat_ofNat 7 (by decide)
  obtain ⟨tenFinite, isTen⟩ := toRat_ofNat 10 (by decide)
  rw [ten, seven, isTen]
  refine ⟨sevenFinite, tenFinite, ?_⟩
  norm_num

end Quadratics.Binary64
