import Quadratics.Proofs.Solution.Quadratic
import Quadratics.Proofs.Solution.Safety

/-!
# The sign of the discriminant

The exact discriminant of a quadratic is a rational number, and the solver sees it only
through four roundings: of `b²`, of `4ac`, of their difference, and of the tolerance that
the difference is held against.  Each of the four is off by less than one part in `2 ^ 42`
of the larger part, as long as that part is no smaller than `smallestScale`
(`error_le`).  So a discriminant beyond two trillionths of the larger part is seen with its
sign (`tolerance_lt_difference`), whatever the scale of the coefficients down to there.

Below that scale the products themselves are lost: `solve_below_smallestScale` shows two
distinct real roots taken for one.  A discriminant is never seen with the opposite sign, on
any scale.
-/

namespace Quadratics

set_option autoImplicit false

open Binary64 (Alike rounded halfUnit)

/-! ## Errors on the scale of the larger part -/

/-- From this scale on the products of a discriminant keep 41 binary digits. -/
def smallestScale : ℚ :=
  1 / 2 ^ 1033

theorem halfUnit_eq : halfUnit = smallestScale / 2 ^ 42 := by
  rw [halfUnit, smallestScale, div_div, ← pow_add]

/-- **One rounding is off by one part in `2 ^ 42` of the scale at most.** -/
theorem error_le {x : Binary64} {value scale : ℚ} (alike : Alike x (rounded value))
    (finite : x.isFinite = true) (above : smallestScale ≤ scale)
    (within : |value| ≤ 2 ^ 11 * scale) : |x.toRat - value| ≤ scale / 2 ^ 42 := by
  rw [alike.toRat_eq]
  refine (Binary64.abs_toRat_rounded_sub_le (alike.isFinite_eq.symm.trans finite)).trans
    (max_le ?_ ?_)
  · rw [halfUnit_eq]
    exact div_le_div_of_nonneg_right above (by norm_num)
  · rw [div_le_div_iff₀ (by norm_num) (by norm_num)]
    linarith

namespace Coefficients

variable {coefficients : Coefficients} {settings : Settings} {discriminant : Binary64}
  {outcome : Outcome}

/-! ## Exact values -/

/-- The exact square of the linear coefficient. -/
def exactSquare (coefficients : Coefficients) : ℚ :=
  coefficients.linear.toRat * coefficients.linear.toRat

/-- Four times the exact product of the other two coefficients. -/
def exactProduct (coefficients : Coefficients) : ℚ :=
  4 * coefficients.quadratic.toRat * coefficients.constant.toRat

/-- The exact discriminant. -/
def exactDiscriminant (coefficients : Coefficients) : ℚ :=
  coefficients.exactSquare - coefficients.exactProduct

/-- The larger of the two parts of the exact discriminant. -/
def exactScale (coefficients : Coefficients) : ℚ :=
  max coefficients.exactSquare |coefficients.exactProduct|

theorem exactSquare_nonneg (coefficients : Coefficients) : 0 ≤ coefficients.exactSquare :=
  mul_self_nonneg _

theorem exactSquare_le (coefficients : Coefficients) :
    |coefficients.exactSquare| ≤ coefficients.exactScale :=
  (abs_of_nonneg coefficients.exactSquare_nonneg).trans_le (le_max_left _ _)

theorem exactProduct_le (coefficients : Coefficients) :
    |coefficients.exactProduct| ≤ coefficients.exactScale :=
  le_max_right _ _

theorem exactScale_nonneg (coefficients : Coefficients) : 0 ≤ coefficients.exactScale :=
  coefficients.exactSquare_nonneg.trans (le_max_left _ _)

theorem linearSquared_alike (finite : coefficients.linearSquared.isFinite = true) :
    Alike coefficients.linearSquared (rounded coefficients.exactSquare) :=
  Binary64.mul_alike (Binary64.isFinite_of_mul finite).1 (Binary64.isFinite_of_mul finite).2

theorem fourfoldProduct_alike_of_fourfold (fourfold : (4 * coefficients.quadratic).isFinite = true)
    (constant : coefficients.constant.isFinite = true) :
    Alike coefficients.fourfoldProduct (rounded coefficients.exactProduct) := by
  have alike := Binary64.mul_alike fourfold constant
  rwa [Binary64.toRat_fourfold fourfold] at alike

theorem fourfoldProduct_alike (finite : coefficients.fourfoldProduct.isFinite = true) :
    Alike coefficients.fourfoldProduct (rounded coefficients.exactProduct) :=
  fourfoldProduct_alike_of_fourfold (Binary64.isFinite_of_mul finite).1
    (Binary64.isFinite_of_mul finite).2

theorem difference_alike (finite : coefficients.difference.isFinite = true) :
    Alike coefficients.difference
      (rounded (coefficients.linearSquared.toRat - coefficients.fourfoldProduct.toRat)) :=
  Binary64.sub_alike (Binary64.isFinite_of_sub finite).1 (Binary64.isFinite_of_sub finite).2

/-! ## What is seen of the exact discriminant -/

section Found

variable (found : coefficients.discriminant? = some discriminant)
include found

/-- A discriminant counts as zero, or it is the difference of its parts. -/
theorem toRat_discriminant :
    discriminant.toRat = 0 ∨ discriminant.toRat = coefficients.difference.toRat := by
  rw [(discriminant?_eq_some found).2.2.2]
  split
  · exact .inl Binary64.toRat_zero
  · exact .inr rfl

/-- **The discriminant is never seen with the opposite sign.** -/
theorem toRat_discriminant_nonneg (nonneg : 0 ≤ coefficients.exactDiscriminant) :
    0 ≤ discriminant.toRat := by
  obtain ⟨difference, squared, product, -⟩ := discriminant?_eq_some found
  rcases toRat_discriminant found with same | same <;> rw [same]
  refine (difference_alike difference).toRat_nonneg difference (sub_nonneg.mpr ?_)
  exact (fourfoldProduct_alike product).toRat_mono (linearSquared_alike squared) product squared
    (sub_nonneg.mp nonneg)

theorem toRat_discriminant_nonpos (nonpos : coefficients.exactDiscriminant ≤ 0) :
    discriminant.toRat ≤ 0 := by
  obtain ⟨difference, squared, product, -⟩ := discriminant?_eq_some found
  rcases toRat_discriminant found with same | same <;> rw [same]
  refine (difference_alike difference).toRat_nonpos difference (sub_nonpos.mpr ?_)
  exact (linearSquared_alike squared).toRat_mono (fourfoldProduct_alike product) squared product
    (sub_nonpos.mp nonpos)

/-! ## Errors -/

section Visible

variable (visible : smallestScale ≤ coefficients.exactScale)
include visible

theorem linearSquared_error :
    |coefficients.linearSquared.toRat - coefficients.exactSquare| ≤
      coefficients.exactScale / 2 ^ 42 := by
  obtain ⟨-, squared, -, -⟩ := discriminant?_eq_some found
  refine error_le (linearSquared_alike squared) squared visible ?_
  have part := coefficients.exactSquare_le
  linarith [coefficients.exactScale_nonneg]

theorem fourfoldProduct_error :
    |coefficients.fourfoldProduct.toRat - coefficients.exactProduct| ≤
      coefficients.exactScale / 2 ^ 42 := by
  obtain ⟨-, -, product, -⟩ := discriminant?_eq_some found
  refine error_le (fourfoldProduct_alike product) product visible ?_
  have part := coefficients.exactProduct_le
  linarith [coefficients.exactScale_nonneg]

/-- The difference of the parts is off by three roundings. -/
theorem difference_error :
    |coefficients.difference.toRat - coefficients.exactDiscriminant| ≤
      3 * (coefficients.exactScale / 2 ^ 42) := by
  obtain ⟨difference, -, -, -⟩ := discriminant?_eq_some found
  have squared := abs_le.mp (linearSquared_error found visible)
  have product := abs_le.mp (fourfoldProduct_error found visible)
  have squaredPart := abs_le.mp coefficients.exactSquare_le
  have productPart := abs_le.mp coefficients.exactProduct_le
  have nonneg := coefficients.exactScale_nonneg
  have rounding := abs_le.mp (error_le (difference_alike difference) difference visible
    (abs_le.mpr ⟨by linarith, by linarith⟩))
  rw [exactDiscriminant, abs_le]
  constructor <;> linarith

/-- The tolerance is a trillionth of the scale and hardly more. -/
theorem tolerance_le :
    (coefficients.computedScale * agreementThreshold).toRat ≤
      coefficients.exactScale / 10 ^ 12 + 5 / 4 * (coefficients.exactScale / 2 ^ 42) := by
  obtain ⟨-, squared, product, -⟩ := discriminant?_eq_some found
  obtain ⟨thresholdFinite, positive, small⟩ := isFinite_agreementThreshold
  obtain ⟨finite, larger, toleranceFinite⟩ := isFinite_computedScale squared product
  have nonneg := coefficients.exactScale_nonneg
  have computed : coefficients.computedScale.toRat ≤
      coefficients.exactScale + coefficients.exactScale / 2 ^ 42 := by
    refine larger.trans_le (max_le ?_ ?_)
    · have error := abs_le.mp (linearSquared_error found visible)
      have part := abs_le.mp coefficients.exactSquare_le
      exact abs_le.mpr ⟨by linarith, by linarith⟩
    · have error := abs_le.mp (fourfoldProduct_error found visible)
      have part := abs_le.mp coefficients.exactProduct_le
      exact abs_le.mpr ⟨by linarith, by linarith⟩
  have computedNonneg : 0 ≤ coefficients.computedScale.toRat :=
    ((abs_nonneg _).trans (le_max_left _ _)).trans_eq larger.symm
  have exact : coefficients.computedScale.toRat * agreementThreshold.toRat ≤
      (coefficients.exactScale + coefficients.exactScale / 2 ^ 42) * (1 / 10 ^ 12) :=
    mul_le_mul computed small positive.le (by linarith)
  have rounding := abs_le.mp (error_le (Binary64.mul_alike finite thresholdFinite) toleranceFinite
    visible (abs_le.mpr ⟨by linarith [mul_nonneg computedNonneg positive.le], by linarith⟩))
  linarith

/-- **Beyond two trillionths of the scale the parts are not taken for equal**, and the
discriminant is their difference. -/
theorem discriminant_eq_difference
    (beyond : 2 / 10 ^ 12 * coefficients.exactScale < |coefficients.exactDiscriminant|) :
    discriminant = coefficients.difference := by
  have error := difference_error found visible
  have tolerance := tolerance_le found visible
  have nonneg := coefficients.exactScale_nonneg
  have size := abs_sub_abs_le_abs_sub coefficients.exactDiscriminant coefficients.difference.toRat
  rw [abs_sub_comm] at size
  obtain ⟨difference, squared, product, same⟩ := discriminant?_eq_some found
  have disagree : ¬ coefficients.partsAgree = true := by
    rw [partsAgree_iff difference squared product, not_le]
    linarith
  rw [same, if_neg disagree]

/-- **A discriminant beyond two trillionths of the scale is seen with its sign.** -/
theorem toRat_discriminant_pos
    (beyond : 2 / 10 ^ 12 * coefficients.exactScale < coefficients.exactDiscriminant) :
    0 < discriminant.toRat := by
  have error := abs_le.mp (difference_error found visible)
  have nonneg := coefficients.exactScale_nonneg
  rw [discriminant_eq_difference found visible (beyond.trans_le (le_abs_self _))]
  linarith

theorem toRat_discriminant_neg
    (beyond : coefficients.exactDiscriminant < -(2 / 10 ^ 12 * coefficients.exactScale)) :
    discriminant.toRat < 0 := by
  have error := abs_le.mp (difference_error found visible)
  have nonneg := coefficients.exactScale_nonneg
  rw [discriminant_eq_difference found visible ((lt_neg_of_lt_neg beyond).trans_le (neg_le_abs _))]
  linarith

end Visible

end Found

/-! ## The outcome -/

/-- The outcome tells the sign of the discriminant, unless it is too large. -/
theorem SolvedBy.outcome_iff_sign (solved : coefficients.SolvedBy discriminant settings outcome)
    (finite : discriminant.isFinite = true) (reached : outcome ≠ .tooLarge) :
    ((∃ root, outcome = .one root) ↔ discriminant.toRat = 0) ∧
    ((∃ first second, outcome = .two first second) ↔ 0 < discriminant.toRat) ∧
    ((∃ first second, outcome = .conjugates first second) ↔ discriminant.toRat < 0) := by
  have zeroFinite := Binary64.vanishes_zero.1
  cases solved with
  | one zero =>
    have sign : discriminant.toRat = 0 := zero ▸ Binary64.toRat_zero
    simp [sign]
  | two positive =>
    rw [Binary64.lt_iff_toRat zeroFinite finite, Binary64.toRat_zero] at positive
    simp [positive, positive.ne', positive.le]
  | conjugates negative =>
    rw [Binary64.lt_iff_toRat finite zeroFinite, Binary64.toRat_zero] at negative
    simp [negative, negative.ne, negative.le]
  | tooLarge => exact absurd rfl reached

/-- What a report on a quadratic that is not too large was found from. -/
theorem exists_discriminant_of_solve {report : Report}
    (solved : coefficients.solve 2 settings = .ok report) (reached : report.outcome ≠ .tooLarge) :
    ∃ discriminant, coefficients.discriminant? = some discriminant ∧
      coefficients.SolvedBy discriminant settings report.outcome := by
  obtain ⟨outcome, found, rfl⟩ := outcome_of_solve solved
  obtain ⟨-, ⟨-, rfl⟩ | exists_discriminant⟩ := solveQuadratic_cases found
  · exact absurd rfl reached
  · exact exists_discriminant

/-- **The outcome of a quadratic follows the sign of the exact discriminant.**  A vanishing
discriminant gives one root, and none is taken for one of the opposite sign.  Where the
larger part is no smaller than `smallestScale`, a discriminant beyond two trillionths of it
is not taken for zero either. -/
theorem solve_sign (allowed : 1 ≤ settings.denominatorBound)
    (nonzero : coefficients.quadratic.sameNumber 0 = false) :
    ∃ report, coefficients.solve 2 settings = .ok report ∧ (report.outcome ≠ .tooLarge →
      (coefficients.exactDiscriminant = 0 → ∃ root, report.outcome = .one root) ∧
      (0 < coefficients.exactDiscriminant →
        ∀ first second, report.outcome ≠ .conjugates first second) ∧
      (coefficients.exactDiscriminant < 0 →
        ∀ first second, report.outcome ≠ .two first second) ∧
      (smallestScale ≤ coefficients.exactScale →
        (2 / 10 ^ 12 * coefficients.exactScale < coefficients.exactDiscriminant →
          ∃ first second, report.outcome = .two first second) ∧
        (coefficients.exactDiscriminant < -(2 / 10 ^ 12 * coefficients.exactScale) →
          ∃ first second, report.outcome = .conjugates first second))) := by
  obtain ⟨report, solved, -⟩ := solve_succeeds allowed
    (fun one : (2 : UInt32) = 1 => absurd one (by decide)) (fun _ => nonzero)
  refine ⟨report, solved, fun reached => ?_⟩
  obtain ⟨discriminant, found, solvedBy⟩ := exists_discriminant_of_solve solved reached
  obtain ⟨one, two, conjugates⟩ := solvedBy.outcome_iff_sign (discriminated found).finite reached
  refine ⟨fun zero => ?_, fun positive first second same => ?_,
    fun negative first second same => ?_, fun visible => ⟨fun beyond => ?_, fun beyond => ?_⟩⟩
  · exact one.mpr (le_antisymm (toRat_discriminant_nonpos found zero.le)
      (toRat_discriminant_nonneg found zero.ge))
  · exact absurd (conjugates.mp ⟨first, second, same⟩)
      (not_lt.mpr (toRat_discriminant_nonneg found positive.le))
  · exact absurd (two.mp ⟨first, second, same⟩)
      (not_lt.mpr (toRat_discriminant_nonpos found negative.le))
  · exact two.mpr (toRat_discriminant_pos found visible beyond)
  · exact conjugates.mpr (toRat_discriminant_neg found visible beyond)

/-- The equation `x² - 3x + 2 = 0` has two real roots. -/
theorem solve_sign_two : ∃ report, solve ⟨1, -3, 2⟩ 2 {} = .ok report ∧
    ∃ first second, report.outcome = .two first second := by
  obtain ⟨report, solved, follows⟩ := @solve_sign ⟨1, -3, 2⟩ {} (by decide) (by decide +kernel)
  have one := (Binary64.toRat_ofNat 1 (by decide)).2
  have three := (Binary64.toRat_ofNat 3 (by decide)).2
  have two := (Binary64.toRat_ofNat 2 (by decide)).2
  have square : exactSquare ⟨1, -3, 2⟩ = 9 := by
    show (-3 : Binary64).toRat * (-3 : Binary64).toRat = 9
    rw [Binary64.toRat_neg, three]
    norm_num
  have product : exactProduct ⟨1, -3, 2⟩ = 8 := by
    show 4 * (1 : Binary64).toRat * (2 : Binary64).toRat = 8
    rw [one, two]
    norm_num
  have scale : exactScale ⟨1, -3, 2⟩ = 9 := by
    rw [exactScale, square, product]
    norm_num
  have visible : smallestScale ≤ 9 :=
    (div_le_one_of_le₀ (one_le_pow₀ one_le_two) (pow_pos two_pos _).le).trans (by norm_num)
  have found : discriminant? ⟨1, -3, 2⟩ = some 1 := by decide +kernel
  have reached := ne_tooLarge_of_solve solved found (by decide +kernel)
  refine ⟨report, solved, ((follows reached).2.2.2 ?_).1 ?_⟩
  · rw [scale]
    exact visible
  · rw [exactDiscriminant, scale, square, product]
    norm_num

/-! ## Below the smallest scale -/

/-- The polynomial `x² + 1.4 x - 0.5`, scaled down by `10 ^ 162`. -/
def faint : Coefficients :=
  ⟨Decimal.nearest ⟨false, 1, -162⟩, Decimal.nearest ⟨false, 14, -163⟩,
    Decimal.nearest ⟨true, 5, -163⟩⟩

/-- **Below the smallest scale two real roots are taken for one.**  The discriminant of
these coefficients is as large as its larger part at least, but both parts of it vanish. -/
theorem solve_below_smallestScale :
    (faint.quadratic.isFinite = true ∧ faint.linear.isFinite = true ∧
      faint.constant.isFinite = true ∧ ¬ faint.quadratic.Vanishes) ∧
    2 / 10 ^ 12 * faint.exactScale < faint.exactDiscriminant ∧
    ∃ report root, faint.solve 2 {} = .ok report ∧ report.outcome = .one root := by
  have quadratic : faint.quadratic.isFinite = true ∧ faint.quadratic.magnitude ≠ 0 ∧
      faint.quadratic.negative = false := by decide +kernel
  have linear : faint.linear.isFinite = true ∧ faint.linear.magnitude ≠ 0 := by decide +kernel
  have constant : faint.constant.isFinite = true ∧ faint.constant.negative = true := by
    decide +kernel
  have nonzero : ¬ faint.quadratic.Vanishes := fun vanishes => quadratic.2.1 vanishes.2
  refine ⟨⟨quadratic.1, linear.1, constant.1, nonzero⟩, ?_, ?_⟩
  · have square : 0 < faint.exactSquare := by
      refine mul_self_pos.mpr fun zero => linear.2 ?_
      exact ((Binary64.vanishes_iff_toRat linear.1).mpr zero).2
    have product : faint.exactProduct ≤ 0 := by
      have quadraticSign := Binary64.toRat_nonneg quadratic.2.2
      have constantSign : 0 ≤ (-faint.constant).toRat :=
        Binary64.toRat_nonneg (by rw [Binary64.negative_neg, constant.2]; rfl)
      rw [Binary64.toRat_neg] at constantSign
      exact mul_nonpos_of_nonneg_of_nonpos (by linarith) (by linarith)
    have scale : faint.exactScale ≤ faint.exactDiscriminant :=
      max_le (by rw [exactDiscriminant]; linarith)
        (by rw [exactDiscriminant, abs_of_nonpos product]; linarith)
    have positive : 0 < faint.exactScale := square.trans_le (le_max_left _ _)
    linarith
  · obtain ⟨report, solved, -⟩ := @solve_succeeds faint {} 2 (by decide)
      (fun one => absurd one (by decide))
      (fun _ => Binary64.sameNumber_zero_eq_false_iff.mpr nonzero)
    have found : faint.discriminant? = some 0 := by decide +kernel
    have reached := ne_tooLarge_of_solve solved found (by decide +kernel)
    obtain ⟨discriminant, isSome, solvedBy⟩ := exists_discriminant_of_solve solved reached
    rw [found] at isSome
    cases isSome
    obtain ⟨root, same⟩ :=
      (solvedBy.outcome_iff_sign Binary64.vanishes_zero.1 reached).1.mpr Binary64.toRat_zero
    exact ⟨report, root, solved, same⟩

end Coefficients

end Quadratics
