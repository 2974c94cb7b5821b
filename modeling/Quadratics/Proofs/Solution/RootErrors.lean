import Quadratics.Proofs.Binary64.SquareRoot
import Quadratics.Proofs.Solution.Sign

/-!
# The errors of a discriminant and its root

The errors here hold on every scale: a relative part, in terms of the sum of the two parts
of the exact discriminant, and a few halves of the least positive number.  The difference
of the parts is off by three roundings (`difference_near`), and the square of its root by
hardly more (`rootSquare_near`).
-/

namespace Quadratics

set_option autoImplicit false

open Binary64 (Alike rounded halfUnit NearRoot)

namespace Coefficients

variable {coefficients : Coefficients} {discriminant : Binary64}

/-- The sum of the two parts of the exact discriminant, without signs. -/
def exactTotal (coefficients : Coefficients) : ℚ :=
  coefficients.exactSquare + |coefficients.exactProduct|

theorem exactTotal_nonneg (coefficients : Coefficients) : 0 ≤ coefficients.exactTotal :=
  add_nonneg coefficients.exactSquare_nonneg (abs_nonneg _)

theorem abs_exactDiscriminant_le (coefficients : Coefficients) :
    |coefficients.exactDiscriminant| ≤ coefficients.exactTotal := by
  refine (abs_sub _ _).trans_eq ?_
  rw [abs_of_nonneg coefficients.exactSquare_nonneg, exactTotal]

/-! ## The parts -/

theorem linearSquared_near (finite : coefficients.linearSquared.isFinite = true) :
    |coefficients.linearSquared.toRat - coefficients.exactSquare| ≤
      coefficients.exactSquare / 2 ^ 53 + halfUnit := by
  have error := (linearSquared_alike finite).abs_sub_le finite
  rwa [abs_of_nonneg coefficients.exactSquare_nonneg] at error

theorem fourfoldProduct_near (finite : coefficients.fourfoldProduct.isFinite = true) :
    |coefficients.fourfoldProduct.toRat - coefficients.exactProduct| ≤
      |coefficients.exactProduct| / 2 ^ 53 + halfUnit :=
  (fourfoldProduct_alike finite).abs_sub_le finite

/-- Both computed parts together, beside the exact ones. -/
theorem parts_le (squared : coefficients.linearSquared.isFinite = true)
    (product : coefficients.fourfoldProduct.isFinite = true) :
    |coefficients.linearSquared.toRat| + |coefficients.fourfoldProduct.toRat| ≤
      coefficients.exactTotal + coefficients.exactTotal / 2 ^ 53 + 2 * halfUnit := by
  have square := abs_sub_abs_le_abs_sub coefficients.linearSquared.toRat coefficients.exactSquare
  have fourfold :=
    abs_sub_abs_le_abs_sub coefficients.fourfoldProduct.toRat coefficients.exactProduct
  rw [abs_of_nonneg coefficients.exactSquare_nonneg] at square
  have squareError := linearSquared_near squared
  have productError := fourfoldProduct_near product
  rw [exactTotal]
  linarith

/-- **The difference of the parts is off by three roundings.** -/
theorem difference_near (difference : coefficients.difference.isFinite = true)
    (squared : coefficients.linearSquared.isFinite = true)
    (product : coefficients.fourfoldProduct.isFinite = true) :
    |coefficients.difference.toRat - coefficients.exactDiscriminant| ≤
      coefficients.exactTotal / 2 ^ 51 + 7 / 2 * halfUnit := by
  have sum := parts_le squared product
  have triangle := abs_sub coefficients.linearSquared.toRat coefficients.fourfoldProduct.toRat
  have rounding := abs_le.mp ((difference_alike difference).abs_sub_le difference)
  have squareError := abs_le.mp (linearSquared_near squared)
  have productError := abs_le.mp (fourfoldProduct_near product)
  have nonneg := coefficients.exactTotal_nonneg
  have halfPositive := Binary64.halfUnit_pos
  rw [exactDiscriminant, abs_le]
  rw [exactTotal] at *
  constructor <;> linarith

/-! ## The tolerance -/

/-- The tolerance is hardly more than a trillionth of the parts. -/
theorem tolerance_near (squared : coefficients.linearSquared.isFinite = true)
    (product : coefficients.fourfoldProduct.isFinite = true) :
    (coefficients.computedScale * agreementThreshold).toRat ≤
      coefficients.exactTotal / 2 ^ 39 + 2 * halfUnit := by
  obtain ⟨thresholdFinite, positive, tiny⟩ := isFinite_agreementThreshold
  obtain ⟨finite, larger, toleranceFinite⟩ := isFinite_computedScale squared product
  have parts := parts_le squared product
  have halfPositive := Binary64.halfUnit_pos
  have nonneg := computedScale_nonneg squared product
  have scale : coefficients.computedScale.toRat ≤ coefficients.exactTotal +
      coefficients.exactTotal / 2 ^ 53 + 2 * halfUnit := by
    rw [larger]
    refine le_trans (max_le ?_ ?_) parts
    · exact le_add_of_nonneg_right (abs_nonneg _)
    · exact le_add_of_nonneg_left (abs_nonneg _)
  have scaled : coefficients.computedScale.toRat * agreementThreshold.toRat ≤
      coefficients.computedScale.toRat * (1 / 10 ^ 12) :=
    mul_le_mul_of_nonneg_left tiny nonneg
  have rounding := (abs_le.mp
    ((Binary64.mul_alike finite thresholdFinite).abs_sub_le toleranceFinite)).2
  rw [abs_of_nonneg (mul_nonneg nonneg positive.le)] at rounding
  have total := coefficients.exactTotal_nonneg
  generalize coefficients.computedScale.toRat * agreementThreshold.toRat = exact at *
  linarith

/-- The tolerance is hardly less than a trillionth of the square. -/
theorem le_tolerance (squared : coefficients.linearSquared.isFinite = true)
    (product : coefficients.fourfoldProduct.isFinite = true) :
    coefficients.exactSquare * (998 / 10 ^ 15) - 2 * halfUnit ≤
      (coefficients.computedScale * agreementThreshold).toRat := by
  obtain ⟨thresholdFinite, positive, tiny⟩ := isFinite_agreementThreshold
  obtain ⟨finite, larger, toleranceFinite⟩ := isFinite_computedScale squared product
  have least : 999 / 10 ^ 15 ≤ agreementThreshold.toRat := Decimal.le_toRat_nearest_trillionth
  have halfPositive := Binary64.halfUnit_pos
  have nonneg := computedScale_nonneg squared product
  have scale : coefficients.exactSquare - coefficients.exactSquare / 2 ^ 53 - halfUnit ≤
      coefficients.computedScale.toRat := by
    have error := (abs_le.mp (linearSquared_near squared)).1
    rw [larger]
    refine le_trans ?_ (le_max_left _ _)
    linarith [le_abs_self coefficients.linearSquared.toRat]
  have scaled : coefficients.computedScale.toRat * (999 / 10 ^ 15) ≤
      coefficients.computedScale.toRat * agreementThreshold.toRat :=
    mul_le_mul_of_nonneg_left least nonneg
  have rounding := (abs_le.mp
    ((Binary64.mul_alike finite thresholdFinite).abs_sub_le toleranceFinite)).1
  rw [abs_of_nonneg (mul_nonneg nonneg positive.le)] at rounding
  have square := coefficients.exactSquare_nonneg
  generalize coefficients.computedScale.toRat * agreementThreshold.toRat = exact at *
  linarith

/-- **Where the discriminant does not count as zero, it is not much smaller than its
parts.** -/
theorem exactSquare_le_of_disagree (difference : coefficients.difference.isFinite = true)
    (squared : coefficients.linearSquared.isFinite = true)
    (product : coefficients.fourfoldProduct.isFinite = true)
    (disagree : ¬ coefficients.partsAgree = true) :
    coefficients.exactSquare ≤ 2 ^ 40 * (|coefficients.exactDiscriminant| + 6 * halfUnit) := by
  rw [partsAgree_iff difference squared product, not_le] at disagree
  have tolerance := le_tolerance squared product
  have error := difference_near difference squared product
  have triangle := abs_sub_abs_le_abs_sub coefficients.difference.toRat
    coefficients.exactDiscriminant
  have parts : |coefficients.exactProduct| ≤
      coefficients.exactSquare + |coefficients.exactDiscriminant| := by
    have split := abs_sub coefficients.exactSquare coefficients.exactDiscriminant
    rwa [exactDiscriminant, sub_sub_cancel, ← exactDiscriminant,
      abs_of_nonneg coefficients.exactSquare_nonneg] at split
  have halfPositive := Binary64.halfUnit_pos
  have square := coefficients.exactSquare_nonneg
  have discriminantNonneg := abs_nonneg coefficients.exactDiscriminant
  rw [exactTotal] at error
  linarith

/-- Where the discriminant counts as zero, its parts agree. -/
theorem difference_le_of_zero (found : coefficients.discriminant? = some discriminant)
    (zero : discriminant = 0) :
    |coefficients.difference.toRat| ≤ (coefficients.computedScale * agreementThreshold).toRat := by
  obtain ⟨difference, squared, product, same⟩ := discriminant?_eq_some found
  refine (partsAgree_iff difference squared product).mp ?_
  by_contra disagree
  rw [if_neg disagree, zero] at same
  refine disagree (partsAgree_of_vanishes squared product ?_)
  rw [← same]
  exact Binary64.vanishes_zero

/-! ## The root -/

/-- **The square of the root is off by one more rounding.** -/
theorem rootSquare_near {exact computed root scale : ℚ} (bound : |exact| ≤ scale)
    (error : |computed - exact| ≤ scale / 2 ^ 51 + 7 / 2 * halfUnit)
    (near : |computed - root ^ 2| ≤ root ^ 2 / 2 ^ 51) :
    |root ^ 2 - exact| ≤ 3 * scale / 2 ^ 51 + 4 * halfUnit := by
  have halfPositive := Binary64.halfUnit_pos
  have exactBounds := abs_le.mp bound
  have errorBounds := abs_le.mp error
  have nearBounds := abs_le.mp near
  rw [abs_le]
  constructor <;> linarith

end Coefficients

end Quadratics
