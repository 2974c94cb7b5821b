import Quadratics.Proofs.Solution.RootErrors

/-!
# When zero is reported as a root

Zero is a root of a polynomial just when its constant is zero.  Rounding may report it for
a constant that is not: a quotient of two numbers may be lost, and in the formulas for two
roots the numerator `-b ± √D` cancels when `4ac` is lost beside `b²`.  That is all that can
happen.  A linear equation reports zero only if its constant is at most half of the least
positive number times its leading coefficient, and a quadratic one only if `4ac` is at most
`b² / 2 ^ 48` and a few of the least positive numbers (`zero_root_small`).

The argument for the cancellation is on the square of the root: it differs from `b²` by
`ν·(2b + ν)`, where `ν` is the numerator, and from the exact discriminant by a few
roundings, so `4ac` is no larger than the two differences.
-/

namespace Quadratics

set_option autoImplicit false

open Binary64 (Alike rounded halfUnit NearRoot)

/-! ## Roots that vanish -/

/-- A root is zero just when its value is lost. -/
theorem RealRoot.vanishes_of_zero {value : Binary64} {settings : Settings} {root : RealRoot}
    (made : RealRoot.ofValue value settings = .ok root) (zero : root.value = 0) :
    value.Vanishes := by
  have alike := Binary64.alike_add_zero value
  rw [← (RealRoot.ofValue_eq made).1, zero] at alike
  exact alike.vanishes_iff.mp Binary64.vanishes_zero

namespace Coefficients

variable {coefficients : Coefficients} {settings : Settings} {discriminant : Binary64}
  {outcome : Outcome}

/-! ## The numerator -/

/-- **A numerator that is lost in the quotient is small**: beside `4ac` if that is not zero,
and in any case. -/
theorem Discriminated.numerator_le (discriminated : coefficients.Discriminated discriminant)
    (fourfold : (4 * coefficients.quadratic).isFinite = true)
    (nonzero : ¬ coefficients.quadratic.Vanishes) (constant : ¬ coefficients.constant.Vanishes)
    {numerator : Binary64} (finite : numerator.isFinite = true)
    (vanishes : (numerator / (2 * coefficients.quadratic)).Vanishes) :
    |numerator.toRat| ≤ |coefficients.exactProduct| / 4 ∧ |numerator.toRat| ≤ 1 / 2 ^ 51 := by
  have halfPositive := Binary64.halfUnit_pos
  have lost := Binary64.abs_le_of_div_vanishes finite discriminated.denominator
    (discriminated.denominator_nonzero nonzero) vanishes
  rw [discriminated.toRat_denominator, abs_mul, abs_two] at lost
  constructor
  · have least := Binary64.two_mul_halfUnit_le_abs discriminated.constant constant
    have product : |coefficients.exactProduct| / 4 =
        |coefficients.quadratic.toRat| * |coefficients.constant.toRat| := by
      rw [exactProduct, abs_mul, abs_mul, abs_of_pos (by norm_num : (0 : ℚ) < 4)]
      ring
    rw [product]
    linarith [mul_le_mul_of_nonneg_left least (abs_nonneg coefficients.quadratic.toRat)]
  · have bounded := (Binary64.isFinite_fourfold_iff discriminated.quadratic).mp fourfold
    have product := (mul_le_mul_of_nonneg_right bounded.le halfPositive.le).trans
      Binary64.overflowBound_mul_halfUnit_le
    linarith [mul_nonneg (abs_nonneg coefficients.quadratic.toRat) halfPositive.le]

/-! ## Cancellation -/

/-- **What cancels is lost.**  A numerator `ν = r - b` that is small, with a root `r` whose
square is near `b² - P`, leaves little room for `P`. -/
theorem product_le_of_cancels {linear root product numerator : ℚ}
    (square : |root ^ 2 - (linear ^ 2 - product)| ≤
      3 * (linear ^ 2 + |product|) / 2 ^ 51 + 4 * halfUnit)
    (rounding : |numerator - (root - linear)| ≤ |root - linear| / 2 ^ 53 + halfUnit)
    (beside : |numerator| ≤ |product| / 4) (small : |numerator| ≤ 1 / 2 ^ 51) :
    |product| ≤ linear ^ 2 / 2 ^ 48 + 8 * halfUnit := by
  have halfPositive := Binary64.halfUnit_pos
  have halfSmall : halfUnit ≤ 1 / 2 ^ 100 :=
    one_div_le_one_div_of_le (by norm_num) (pow_le_pow_right₀ one_le_two (by decide))
  have difference : root ^ 2 - linear ^ 2 = (root - linear) * (root - linear + 2 * linear) := by
    ring
  have exact : |root - linear| ≤ |numerator| + |root - linear| / 2 ^ 53 + halfUnit := by
    have triangle := abs_sub_abs_le_abs_sub (root - linear) numerator
    rw [abs_sub_comm numerator (root - linear)] at rounding
    linarith
  have tiny : |root - linear| ≤ 1 / 2 ^ 50 := by linarith
  have sum : |root - linear + 2 * linear| ≤ 1 / 2 ^ 50 + (1 + linear ^ 2) := by
    have double : 2 * |linear| ≤ 1 + linear ^ 2 := by
      linarith [sq_nonneg (|linear| - 1), sub_sq |linear| 1, sq_abs linear]
    have triangle := abs_add_le (root - linear) (2 * linear)
    rw [abs_mul, abs_two] at triangle
    linarith
  have apart : |root ^ 2 - linear ^ 2| ≤ |root - linear| * (1 + 1 / 2 ^ 50) +
      1 / 2 ^ 50 * linear ^ 2 := by
    rw [difference, abs_mul]
    have bound := mul_le_mul_of_nonneg_left sum (abs_nonneg (root - linear))
    have squareBound := mul_le_mul_of_nonneg_right tiny (sq_nonneg linear)
    linarith
  have split : |product| ≤ |root ^ 2 - (linear ^ 2 - product)| + |root ^ 2 - linear ^ 2| := by
    have triangle := abs_sub (root ^ 2 - (linear ^ 2 - product)) (root ^ 2 - linear ^ 2)
    have same : root ^ 2 - (linear ^ 2 - product) - (root ^ 2 - linear ^ 2) = product := by ring
    rwa [same] at triangle
  linarith [sq_nonneg linear]

theorem exactProduct_of_vanishes (vanishes : coefficients.constant.Vanishes) :
    |coefficients.exactProduct| ≤ coefficients.exactSquare / 2 ^ 48 + 8 * halfUnit := by
  have nonneg := coefficients.exactSquare_nonneg
  have halfPositive := Binary64.halfUnit_pos
  rw [exactProduct, (Binary64.vanishes_iff_toRat vanishes.1).mp vanishes, mul_zero, abs_zero]
  positivity

section Found

variable (found : coefficients.discriminant? = some discriminant)
  (nonzero : ¬ coefficients.quadratic.Vanishes)
include found nonzero

/-- **Of two roots one is lost only where `4ac` is.** -/
theorem product_le_of_two (positive : 0 < discriminant) {root : Binary64}
    (signed : root = discriminant.sqrt ∨ root = -discriminant.sqrt)
    (vanishes : ((-coefficients.linear + root) / (2 * coefficients.quadratic)).Vanishes) :
    |coefficients.exactProduct| ≤ coefficients.exactSquare / 2 ^ 48 + 8 * halfUnit := by
  by_cases constant : coefficients.constant.Vanishes
  · exact exactProduct_of_vanishes constant
  have isDiscriminated := discriminated found
  obtain ⟨difference, squared, product, -⟩ := discriminant?_eq_some found
  rw [Binary64.lt_iff_toRat Binary64.vanishes_zero.1 isDiscriminated.finite, Binary64.toRat_zero]
    at positive
  have isNear := Binary64.nearRoot_sqrt isDiscriminated.finite positive
  have near := isNear.abs_sub_le
  have square : root.toRat ^ 2 = discriminant.sqrt.toRat ^ 2 := by
    rw [← sq_abs, (isNear.signed signed).2]
  have isDifference : discriminant.toRat = coefficients.difference.toRat :=
    (toRat_discriminant found).resolve_left positive.ne'
  have exactSquare : coefficients.exactSquare = coefficients.linear.toRat ^ 2 := (sq _).symm
  have error := difference_near difference squared product
  rw [← isDifference] at error
  rw [← square] at near
  have rootError := rootSquare_near coefficients.abs_exactDiscriminant_le error near
  have finite := Binary64.isFinite_of_div vanishes.1
  obtain ⟨beside, small⟩ := isDiscriminated.numerator_le (Binary64.isFinite_of_mul product).1
    nonzero constant finite vanishes
  have rounding := (Binary64.add_alike (Binary64.isFinite_of_add finite).1
    (Binary64.isFinite_of_add finite).2).abs_sub_le finite
  rw [Binary64.toRat_neg, neg_add_eq_sub] at rounding
  rw [exactDiscriminant, exactTotal, exactSquare] at rootError
  rw [exactSquare]
  exact product_le_of_cancels rootError rounding beside small

/-- **A single root is lost only where `4ac` is next to nothing.** -/
theorem product_le_of_one (zero : discriminant = 0)
    (vanishes : (-coefficients.linear / (2 * coefficients.quadratic)).Vanishes) :
    |coefficients.exactProduct| ≤ coefficients.exactSquare / 2 ^ 48 + 8 * halfUnit := by
  by_cases constant : coefficients.constant.Vanishes
  · exact exactProduct_of_vanishes constant
  obtain ⟨difference, squared, product, -⟩ := discriminant?_eq_some found
  obtain ⟨beside, small⟩ := (discriminated found).numerator_le (Binary64.isFinite_of_mul product).1
    nonzero constant (Binary64.isFinite_of_div vanishes.1) vanishes
  rw [Binary64.toRat_neg, abs_neg] at beside small
  have square : coefficients.exactSquare ≤ |coefficients.exactProduct| / 4 * (1 / 2 ^ 51) := by
    rw [exactSquare, ← abs_mul_abs_self]
    exact mul_le_mul beside small (abs_nonneg _) (by positivity)
  have agree := (difference_le_of_zero found zero).trans (tolerance_near squared product)
  have error := difference_near difference squared product
  have split : |coefficients.exactProduct| ≤ coefficients.exactSquare +
      (|coefficients.difference.toRat| +
        |coefficients.difference.toRat - coefficients.exactDiscriminant|) := by
    have exact : coefficients.exactProduct = coefficients.exactSquare -
        (coefficients.difference.toRat -
          (coefficients.difference.toRat - coefficients.exactDiscriminant)) := by
      rw [sub_sub_cancel, exactDiscriminant, sub_sub_cancel]
    refine (congrArg abs exact).trans_le ((abs_sub _ _).trans ?_)
    exact add_le_add (abs_of_nonneg coefficients.exactSquare_nonneg).le (abs_sub _ _)
  have halfPositive := Binary64.halfUnit_pos
  have nonneg := coefficients.exactSquare_nonneg
  rw [exactTotal] at *
  linarith

end Found

/-! ## Reports -/

variable {report : Report}

/-- **A linear equation reports zero only where the quotient is lost.** -/
theorem constant_le_of_zero_root (linear : coefficients.linear.isFinite = true)
    (solved : coefficients.solve 1 settings = .ok report) (zero : 0 ∈ report.realRoots) :
    |coefficients.constant.toRat| ≤ |coefficients.linear.toRat| * halfUnit := by
  obtain ⟨outcome, isOutcome, rfl⟩ := outcome_of_solve solved
  change coefficients.solveLinear settings = .ok outcome at isOutcome
  rcases solveLinear_cases isOutcome with ⟨nonzero, ⟨root, rfl, finite, made⟩ | ⟨rfl, -⟩⟩
  · have value : root.value = 0 := (List.mem_singleton.mp zero).symm
    have lost := Binary64.abs_le_of_div_vanishes (Binary64.isFinite_of_div finite) linear nonzero
      (RealRoot.vanishes_of_zero made value)
    rwa [Binary64.toRat_neg, abs_neg] at lost
  · exact absurd zero List.not_mem_nil

/-- **A quadratic equation reports zero only where `4ac` is lost beside `b²`.** -/
theorem product_le_of_zero_root (solved : coefficients.solve 2 settings = .ok report)
    (zero : 0 ∈ report.realRoots) :
    |coefficients.exactProduct| ≤ coefficients.exactSquare / 2 ^ 48 + 8 * halfUnit := by
  obtain ⟨outcome, isOutcome, rfl⟩ := outcome_of_solve solved
  obtain ⟨nonzero, ⟨-, rfl⟩ | ⟨discriminant, found, solvedBy⟩⟩ := solveQuadratic_cases isOutcome
  · exact absurd zero List.not_mem_nil
  · cases solvedBy with
    | two positive finite finite' made made' =>
      rcases List.mem_cons.mp zero with isFirst | isSecond
      · exact product_le_of_two found nonzero positive (.inr rfl)
          (RealRoot.vanishes_of_zero made isFirst.symm)
      · exact product_le_of_two found nonzero positive (.inl rfl)
          (RealRoot.vanishes_of_zero made' (List.mem_singleton.mp isSecond).symm)
    | one isZero finite made =>
      exact product_le_of_one found nonzero isZero
        (RealRoot.vanishes_of_zero made (List.mem_singleton.mp zero).symm)
    | conjugates => exact absurd zero List.not_mem_nil
    | tooLarge => exact absurd zero List.not_mem_nil

end Coefficients

namespace Equation

/-- **Zero is reported as a root only where the constant is zero or lost to rounding.** -/
theorem zero_root_small {source : String} {equation : Equation} (settings : Settings)
    (accepted : Equation.read source = .ok equation) :
    (1 ≤ settings.denominatorBound → ∃ report, equation.solve settings = .ok report) ∧
    ∀ report, equation.solve settings = .ok report → 0 ∈ report.realRoots →
      (equation.reduce.degree = 1 → |equation.coefficients.constant.toRat| ≤
        |equation.coefficients.linear.toRat| * halfUnit) ∧
      (equation.reduce.degree = 2 → |equation.coefficients.exactProduct| ≤
        equation.coefficients.exactSquare / 2 ^ 48 + 8 * halfUnit) := by
  refine ⟨fun allowed => ?_, fun report solved zero => ⟨fun one => ?_, fun two => ?_⟩⟩
  · obtain ⟨report, solved, -⟩ := (Obtained.read accepted).wellFormed.solve_succeeds allowed
    exact ⟨report, solved⟩
  · obtain ⟨left, right, rfl, workable⟩ := exists_ofSides_of_read accepted
    have linear := isFinite_coefficient (finite_reduce_iff.mpr workable.finite) 1
    rw [Equation.solve, one] at solved
    exact Coefficients.constant_le_of_zero_root linear solved zero
  · rw [Equation.solve, two] at solved
    exact Coefficients.product_le_of_zero_root solved zero

/-! ## A constant that is lost -/

/-- The equation `x² + 1000000000 x + 1 = 0`. -/
def cancelling : Equation :=
  ofSides [⟨1, 2⟩, ⟨1000000000, 1⟩, ⟨1, 0⟩] [⟨0, 0⟩]

theorem read_cancelling :
    Equation.read "x^2 + 1000000000 * x + 1 = 0" = .ok cancelling ∧
      cancelling.reduce.degree = 2 ∧ cancelling.coefficients.constant = 1 := by
  decide +kernel

theorem realRoots_cancelling :
    (cancelling.solve {}).map Report.realRoots = .ok [-1000000000, 0] := by
  decide +kernel

theorem exists_report_cancelling :
    ∃ report, cancelling.solve {} = .ok report ∧ 0 ∈ report.realRoots := by
  have roots := realRoots_cancelling
  cases solved : cancelling.solve {} with
  | error misuse => rw [solved] at roots; cases roots
  | ok report =>
    rw [solved] at roots
    refine ⟨report, rfl, ?_⟩
    rw [show report.realRoots = _ from Except.ok.inj roots]
    exact List.mem_cons_of_mem _ List.mem_cons_self

/-- The equation `x² + 1000000000 x + 1 = 0` reports zero, and `4ac` is lost beside `b²`. -/
theorem zero_root_small_billion :
    ∃ equation report, Equation.read "x^2 + 1000000000 * x + 1 = 0" = .ok equation ∧
      equation.solve {} = .ok report ∧ 0 ∈ report.realRoots ∧
      |equation.coefficients.exactProduct| ≤
        equation.coefficients.exactSquare / 2 ^ 48 + 8 * halfUnit := by
  obtain ⟨accepted, degree, -⟩ := read_cancelling
  obtain ⟨report, solved, zero⟩ := exists_report_cancelling
  have small := ((zero_root_small {} accepted).2 report solved zero).2 degree
  exact ⟨cancelling, report, accepted, solved, zero, small⟩

/-- **Zero is reported although the constant is one.** -/
theorem solve_cancels :
    ∃ equation report, Equation.read "x^2 + 1000000000 * x + 1 = 0" = .ok equation ∧
      equation.reduce.degree = 2 ∧ equation.solve {} = .ok report ∧
      report.outcome ≠ .tooLarge ∧ 0 ∈ report.realRoots ∧
      equation.coefficients.constant = 1 := by
  obtain ⟨accepted, degree, constant⟩ := read_cancelling
  obtain ⟨report, solved, zero⟩ := exists_report_cancelling
  refine ⟨cancelling, report, accepted, degree, solved, fun tooLarge => ?_, zero, constant⟩
  rw [Report.realRoots, tooLarge] at zero
  exact List.not_mem_nil zero

end Equation

end Quadratics
