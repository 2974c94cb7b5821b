import Quadratics.Proofs.Binary64.Integers
import Quadratics.Proofs.Solution.Sign
import Quadratics.Solution.Printer

/-!
# Quadratics with integer roots

The polynomial `a·(x - p)·(x - q)` with integers `a`, `p` and `q` is solved exactly when
`a²·(|p| + |q|)²` is at most `2 ^ 53` (`solve_integer_roots`).  Then every number on the way
is an integer that binary64 holds: the parts of the discriminant, their difference
`a²·(p - q)²`, its root and the numerators.  Distinct roots are not taken for one as long as
`|p + q|` is at most `999999·|p - q|`, since the tolerance then stays below the
discriminant (`partsAgree_eq_false`).

Nothing bounds `a` where both roots are zero, and then `4a` may overflow although all of
`b²`, `4ac` and the discriminant are zero: `solve_power_tooLarge` is such a polynomial.
-/

namespace Quadratics

set_option autoImplicit false

open Binary64 (IsInteger overflowBound)

/-! ## Roots that are integers -/

/-- A root is shown as the integer that it is. -/
structure RealRoot.IsPlain (root : RealRoot) (number : ℤ) : Prop where
  /-- The value is the integer, and zero has no sign. -/
  value : root.value = .ofInt number
  /-- The value is exact. -/
  exact : root.value.toRat = number
  /-- No fraction is kept beside it. -/
  fraction : root.fraction = none
  /-- The text is that of the integer. -/
  text : root.text = toString number

/-- **An integer makes a plain root**, whatever the settings. -/
theorem RealRoot.ofValue_integer {value : Binary64} {number : ℤ} (integer : IsInteger value number)
    (small : |number| ≤ 2 ^ 34) (settings : Settings) :
    ∃ root, RealRoot.ofValue value settings = .ok root ∧ root.IsPlain number := by
  have isInteger : IsInteger (.ofInt number) number := .ofInt (small.trans (by norm_num))
  have beside : RealRoot.fractionBeside (value + 0) settings = .ok none := by
    rw [integer.add_zero_eq, RealRoot.fractionBeside, isInteger.looksWhole small, if_pos rfl]
  obtain ⟨root, made, fraction⟩ :
      ∃ root, RealRoot.ofValue value settings = .ok root ∧ root.fraction = none := by
    refine ⟨⟨value + 0, none, settings.places⟩, ?_, rfl⟩
    simp only [RealRoot.ofValue, beside, Except.map]
  have isValue := (RealRoot.ofValue_eq made).1
  rw [integer.add_zero_eq] at isValue
  refine ⟨root, made, isValue, ?_, fraction, ?_⟩
  · rw [isValue]
    exact isInteger.exact
  · rw [RealRoot.text, fraction, isValue]
    dsimp only
    rw [isInteger.shown small]

/-! ## The numbers on the way -/

namespace Coefficients

variable {coefficients : Coefficients} {settings : Settings} {a p q : ℤ}

/-- The coefficients of `a·(x - p)·(x - q)`, exactly. -/
structure Factored (coefficients : Coefficients) (a p q : ℤ) : Prop where
  quadratic : IsInteger coefficients.quadratic a
  linear : IsInteger coefficients.linear (-a * (p + q))
  constant : IsInteger coefficients.constant (a * p * q)

section Bounds

variable (small : a ^ 2 * (|p| + |q|) ^ 2 ≤ 2 ^ 53)
include small

theorem abs_mul_sum_le : |a| * (|p| + |q|) ≤ 2 ^ 27 := by
  refine le_of_sq_le_sq ?_ (by norm_num)
  rw [mul_pow, sq_abs]
  exact small.trans (by norm_num)

theorem abs_mul_add_le : |a * (p + q)| ≤ 2 ^ 27 := by
  rw [abs_mul]
  exact (mul_le_mul_of_nonneg_left (abs_add_le p q) (abs_nonneg a)).trans (abs_mul_sum_le small)

theorem abs_mul_sub_le : |a * (p - q)| ≤ 2 ^ 27 := by
  rw [abs_mul]
  exact (mul_le_mul_of_nonneg_left (abs_sub p q) (abs_nonneg a)).trans (abs_mul_sum_le small)

theorem square_le : |-a * (p + q) * (-a * (p + q))| ≤ 2 ^ 53 := by
  have sum : (p + q) ^ 2 ≤ (|p| + |q|) ^ 2 :=
    sq_le_sq.mpr ((abs_add_le p q).trans (le_abs_self _))
  rw [abs_of_nonneg (mul_self_nonneg _)]
  calc -a * (p + q) * (-a * (p + q)) = a ^ 2 * (p + q) ^ 2 := by ring
    _ ≤ a ^ 2 * (|p| + |q|) ^ 2 := mul_le_mul_of_nonneg_left sum (sq_nonneg a)
    _ ≤ 2 ^ 53 := small

theorem discriminant_le : |a ^ 2 * (p - q) ^ 2| ≤ 2 ^ 53 := by
  have difference : (p - q) ^ 2 ≤ (|p| + |q|) ^ 2 :=
    sq_le_sq.mpr ((abs_sub p q).trans (le_abs_self _))
  rw [abs_of_nonneg (by positivity)]
  exact (mul_le_mul_of_nonneg_left difference (sq_nonneg a)).trans small

theorem product_le : |4 * a * (a * p * q)| ≤ 2 ^ 53 := by
  calc |4 * a * (a * p * q)| = a ^ 2 * (4 * (|p| * |q|)) := by
        rw [show 4 * a * (a * p * q) = a ^ 2 * (4 * (p * q)) by ring, abs_mul, abs_mul 4, abs_mul p,
          abs_of_nonneg (sq_nonneg a), abs_of_pos (by norm_num : (0 : ℤ) < 4)]
    _ ≤ a ^ 2 * (|p| + |q|) ^ 2 := by
        refine mul_le_mul_of_nonneg_left ?_ (sq_nonneg a)
        linarith [sq_nonneg (|p| - |q|), sub_sq |p| |q|, add_sq |p| |q|]
    _ ≤ 2 ^ 53 := small

variable (nonzero : a ≠ 0)
include nonzero

theorem roots_le : |p| ≤ 2 ^ 27 ∧ |q| ≤ 2 ^ 27 := by
  have scaled : |p| + |q| ≤ |a| * (|p| + |q|) :=
    le_mul_of_one_le_left (by positivity) (Int.one_le_abs nonzero)
  have bound := scaled.trans (abs_mul_sum_le small)
  exact ⟨by linarith [abs_nonneg q], by linarith [abs_nonneg p]⟩

theorem ordered_le : |if 0 < a then min p q else max p q| ≤ 2 ^ 27 ∧
    |if 0 < a then max p q else min p q| ≤ 2 ^ 27 := by
  obtain ⟨pSmall, qSmall⟩ := roots_le small nonzero
  have lesser : |min p q| ≤ 2 ^ 27 := abs_min_le_max_abs_abs.trans (max_le pSmall qSmall)
  have greater : |max p q| ≤ 2 ^ 27 := abs_max_le_max_abs_abs.trans (max_le pSmall qSmall)
  split
  · exact ⟨lesser, greater⟩
  · exact ⟨greater, lesser⟩

omit nonzero in
/-- Where a root is not zero, the coefficient of the square is not large. -/
theorem fourfold_lt (room : p = 0 → q = 0 → 4 * |(a : ℚ)| < overflowBound) :
    4 * |(a : ℚ)| < overflowBound := by
  by_cases zeros : |p| + |q| = 0
  · have bothZero : |p| = 0 ∧ |q| = 0 :=
      (add_eq_zero_iff_of_nonneg (abs_nonneg p) (abs_nonneg q)).mp zeros
    exact room (abs_eq_zero.mp bothZero.1) (abs_eq_zero.mp bothZero.2)
  · have positive : 1 ≤ |p| + |q| := by
      have nonneg : 0 ≤ |p| + |q| := by positivity
      omega
    have bound : |a| ≤ 2 ^ 27 :=
      (le_mul_of_one_le_right (abs_nonneg a) positive).trans (abs_mul_sum_le small)
    have boundCast : |(a : ℚ)| ≤ 2 ^ 27 := by exact_mod_cast bound
    have large : (2 : ℚ) ^ 30 ≤ overflowBound := Binary64.two_pow_le_overflowBound (by decide)
    linarith

end Bounds

/-- The numerators of the formulas are multiples of the denominator. -/
theorem numerator_eq (a p q : ℤ) :
    -(-a * (p + q)) - |a * (p - q)| = (if 0 < a then min p q else max p q) * (2 * a) ∧
      -(-a * (p + q)) + |a * (p - q)| = (if 0 < a then max p q else min p q) * (2 * a) := by
  rw [abs_mul]
  rcases le_total p q with order | order <;> rcases lt_or_ge 0 a with sign | sign
  · rw [if_pos sign, if_pos sign, min_eq_left order, max_eq_right order, abs_of_pos sign,
      abs_of_nonpos (sub_nonpos.mpr order)]
    constructor <;> ring
  · rw [if_neg sign.not_gt, if_neg sign.not_gt, min_eq_left order, max_eq_right order,
      abs_of_nonpos sign, abs_of_nonpos (sub_nonpos.mpr order)]
    constructor <;> ring
  · rw [if_pos sign, if_pos sign, min_eq_right order, max_eq_left order, abs_of_pos sign,
      abs_of_nonneg (sub_nonneg.mpr order)]
    constructor <;> ring
  · rw [if_neg sign.not_gt, if_neg sign.not_gt, min_eq_right order, max_eq_left order,
      abs_of_nonpos sign, abs_of_nonneg (sub_nonneg.mpr order)]
    constructor <;> ring

namespace Factored

variable (factored : coefficients.Factored a p q) (small : a ^ 2 * (|p| + |q|) ^ 2 ≤ 2 ^ 53)
include factored small

theorem linearSquared :
    IsInteger coefficients.linearSquared (-a * (p + q) * (-a * (p + q))) :=
  factored.linear.mul factored.linear (square_le small)

section Room

variable (room : p = 0 → q = 0 → 4 * |(a : ℚ)| < overflowBound)
include room

theorem fourfold : IsInteger (4 * coefficients.quadratic) (4 * a) := by
  have finite : (4 * coefficients.quadratic).isFinite = true := by
    rw [Binary64.isFinite_fourfold_iff factored.quadratic.finite, factored.quadratic.exact]
    exact fourfold_lt small room
  refine ⟨finite, ?_⟩
  rw [Binary64.toRat_fourfold finite, factored.quadratic.exact]
  push_cast
  rfl

theorem denominator : IsInteger (2 * coefficients.quadratic) (2 * a) := by
  obtain ⟨finite, exact⟩ := Binary64.isFinite_double (factored.fourfold small room).finite
  refine ⟨finite, ?_⟩
  rw [exact, factored.quadratic.exact]
  push_cast
  rfl

theorem fourfoldProduct : IsInteger coefficients.fourfoldProduct (4 * a * (a * p * q)) :=
  (factored.fourfold small room).mul factored.constant (product_le small)

/-- **The difference of the parts is exact.** -/
theorem difference : IsInteger coefficients.difference (a ^ 2 * (p - q) ^ 2) := by
  have same : -a * (p + q) * (-a * (p + q)) - 4 * a * (a * p * q) = a ^ 2 * (p - q) ^ 2 := by ring
  have exact := (factored.linearSquared small).sub (factored.fourfoldProduct small room)
    (by rw [same]; exact discriminant_le small)
  rwa [same] at exact

theorem discriminant?_eq : coefficients.discriminant? =
    some (if coefficients.partsAgree then 0 else coefficients.difference) :=
  if_pos ⟨(factored.difference small room).finite, (factored.linearSquared small).finite,
    (factored.fourfoldProduct small room).finite⟩

/-- Equal roots have equal parts. -/
theorem partsAgree_eq_true (same : p = q) : coefficients.partsAgree = true := by
  have difference := factored.difference small room
  refine partsAgree_of_vanishes (factored.linearSquared small).finite
    (factored.fourfoldProduct small room).finite ?_
  rw [Binary64.vanishes_iff_toRat difference.finite, difference.exact, same]
  norm_num

/-- The larger part of the discriminant, against the discriminant. -/
theorem computedScale_le (apart : |p + q| ≤ 999999 * |p - q|) :
    coefficients.computedScale.toRat ≤ 999999 ^ 2 * ((a ^ 2 * (p - q) ^ 2 : ℤ) : ℚ) := by
  have squared := factored.linearSquared small
  have product := factored.fourfoldProduct small room
  have sum : a ^ 2 * (p + q) ^ 2 ≤ 999999 ^ 2 * (a ^ 2 * (p - q) ^ 2) := by
    have sums : (p + q) ^ 2 ≤ (999999 * (p - q)) ^ 2 := by
      refine sq_le_sq.mpr (apart.trans_eq ?_)
      rw [abs_mul, abs_of_pos (by norm_num : (0 : ℤ) < 999999)]
    linarith [mul_le_mul_of_nonneg_left sums (sq_nonneg a), mul_pow (999999 : ℤ) (p - q) 2]
  have nonneg : 0 ≤ a ^ 2 * (p - q) ^ 2 := by positivity
  have sumNonneg : 0 ≤ a ^ 2 * (p + q) ^ 2 := by positivity
  rw [(isFinite_computedScale squared.finite product.finite).2.1, squared.exact, product.exact]
  refine max_le ?_ ?_
  · have bound : |-a * (p + q) * (-a * (p + q))| ≤ 999999 ^ 2 * (a ^ 2 * (p - q) ^ 2) := by
      rw [abs_of_nonneg (mul_self_nonneg _)]
      linarith
    exact_mod_cast bound
  · have bound : |4 * a * (a * p * q)| ≤ 999999 ^ 2 * (a ^ 2 * (p - q) ^ 2) := by
      have split : 4 * a * (a * p * q) = a ^ 2 * (p + q) ^ 2 - a ^ 2 * (p - q) ^ 2 := by ring
      rw [split, abs_le]
      constructor <;> linarith
    exact_mod_cast bound

/-- **The tolerance stays below the discriminant of roots that are apart.** -/
theorem partsAgree_eq_false (nonzero : a ≠ 0) (different : p ≠ q)
    (apart : |p + q| ≤ 999999 * |p - q|) : coefficients.partsAgree = false := by
  have squared := factored.linearSquared small
  have product := factored.fourfoldProduct small room
  have difference := factored.difference small room
  have scale := factored.computedScale_le small room apart
  obtain ⟨thresholdFinite, positive, tiny⟩ := isFinite_agreementThreshold
  obtain ⟨finite, -, toleranceFinite⟩ := isFinite_computedScale squared.finite product.finite
  have scaleNonneg := computedScale_nonneg squared.finite product.finite
  have visible : (1 : ℚ) ≤ (a ^ 2 * (p - q) ^ 2 : ℤ) := by
    have whole : 0 < a ^ 2 * (p - q) ^ 2 :=
      mul_pos (pow_two_pos_of_ne_zero nonzero) (pow_two_pos_of_ne_zero (sub_ne_zero.mpr different))
    exact_mod_cast whole
  have exact : coefficients.computedScale.toRat * agreementThreshold.toRat ≤
      999999 ^ 2 * ((a ^ 2 * (p - q) ^ 2 : ℤ) : ℚ) * (1 / 10 ^ 12) :=
    mul_le_mul scale tiny positive.le (scaleNonneg.trans scale)
  have rounding := (abs_le.mp
    ((Binary64.mul_alike finite thresholdFinite).abs_sub_le toleranceFinite)).2
  rw [abs_of_nonneg (mul_nonneg scaleNonneg positive.le)] at rounding
  have half : Binary64.halfUnit ≤ 1 / 2 ^ 53 :=
    one_div_le_one_div_of_le (by norm_num) (pow_le_pow_right₀ one_le_two (by decide))
  rw [← Bool.not_eq_true, partsAgree_iff difference.finite squared.finite product.finite,
    difference.exact, not_le]
  refine lt_of_lt_of_le ?_ (le_abs_self _)
  generalize ((a ^ 2 * (p - q) ^ 2 : ℤ) : ℚ) = discriminant at *
  generalize coefficients.computedScale.toRat * agreementThreshold.toRat = tolerance at *
  linarith

/-! ## Solving -/

/-- The formula of a single root gives that root. -/
theorem singleRoot (nonzero : a ≠ 0) (same : p = q) :
    IsInteger (-coefficients.linear / (2 * coefficients.quadratic)) p := by
  have numerator := factored.linear.neg
  have even : -(-a * (p + q)) = p * (2 * a) := by
    rw [← same]
    ring
  rw [even] at numerator
  exact numerator.div (factored.denominator small room) (mul_ne_zero two_ne_zero nonzero)
    ((roots_le small nonzero).1.trans (by norm_num))

/-- The root of the discriminant is exact. -/
theorem squareRoot (nonzero : a ≠ 0) (different : p ≠ q) :
    IsInteger coefficients.difference.sqrt |a * (p - q)| := by
  have difference := factored.difference small room
  rw [← mul_pow, ← sq_abs] at difference
  exact difference.sqrt (abs_pos.mpr (mul_ne_zero nonzero (sub_ne_zero.mpr different)))
    ((abs_mul_sub_le small).trans (by norm_num))

/-- **The formulas of two roots give the roots**, the first one by the sign of `a`. -/
theorem twoRoots (nonzero : a ≠ 0) (different : p ≠ q) :
    IsInteger ((-coefficients.linear - coefficients.difference.sqrt) /
        (2 * coefficients.quadratic)) (if 0 < a then min p q else max p q) ∧
      IsInteger ((-coefficients.linear + coefficients.difference.sqrt) /
        (2 * coefficients.quadratic)) (if 0 < a then max p q else min p q) := by
  have denominator := factored.denominator small room
  have root := factored.squareRoot small room nonzero different
  have divisor : 2 * a ≠ 0 := mul_ne_zero two_ne_zero nonzero
  obtain ⟨lesser, greater⟩ := ordered_le small nonzero
  obtain ⟨lower, upper⟩ := numerator_eq a p q
  have sum := abs_le.mp (abs_mul_add_le small)
  have distance := abs_mul_sub_le small
  have distanceNonneg := abs_nonneg (a * (p - q))
  have opposite : -(-a * (p + q)) = a * (p + q) := by ring
  have subtracted := factored.linear.neg.sub root
    (by rw [opposite]; exact abs_le.mpr ⟨by linarith, by linarith⟩)
  have added := factored.linear.neg.add root
    (by rw [opposite]; exact abs_le.mpr ⟨by linarith, by linarith⟩)
  rw [lower] at subtracted
  rw [upper] at added
  exact ⟨subtracted.div denominator divisor (lesser.trans (by norm_num)),
    added.div denominator divisor (greater.trans (by norm_num))⟩

/-- Equal roots are solved by the discriminant zero. -/
theorem solveBy_equal (settings : Settings) (nonzero : a ≠ 0) (same : p = q) :
    ∃ root, coefficients.solveBy 0 settings = .ok (.one root) ∧ root.IsPlain p := by
  have root := factored.singleRoot small room nonzero same
  obtain ⟨plain, made, isPlain⟩ :=
    RealRoot.ofValue_integer root ((roots_le small nonzero).1.trans (by norm_num)) settings
  have notPositive : ¬ (0 : Binary64) < 0 := by decide +kernel
  have zero : (0 : Binary64).sameNumber 0 = true := by decide +kernel
  refine ⟨plain, ?_, isPlain⟩
  simp only [solveBy, if_neg notPositive, zero, if_true, Outcome.ofRoot, root.finite, made]
  rfl

/-- Distinct roots are solved by the exact discriminant. -/
theorem solveBy_distinct (settings : Settings) (nonzero : a ≠ 0) (different : p ≠ q) :
    ∃ first second, coefficients.solveBy coefficients.difference settings =
        .ok (.two first second) ∧
      first.IsPlain (if 0 < a then min p q else max p q) ∧
      second.IsPlain (if 0 < a then max p q else min p q) := by
  have difference := factored.difference small room
  have positive : 0 < coefficients.difference := by
    rw [Binary64.lt_iff_toRat Binary64.vanishes_zero.1 difference.finite, Binary64.toRat_zero,
      difference.exact, Int.cast_pos]
    exact mul_pos (pow_two_pos_of_ne_zero nonzero)
      (pow_two_pos_of_ne_zero (sub_ne_zero.mpr different))
  obtain ⟨lesser, greater⟩ := ordered_le small nonzero
  obtain ⟨lower, upper⟩ := factored.twoRoots small room nonzero different
  obtain ⟨first, madeFirst, firstPlain⟩ :=
    RealRoot.ofValue_integer lower (lesser.trans (by norm_num)) settings
  obtain ⟨second, madeSecond, secondPlain⟩ :=
    RealRoot.ofValue_integer upper (greater.trans (by norm_num)) settings
  refine ⟨first, second, ?_, firstPlain, secondPlain⟩
  simp only [solveBy, if_pos positive, Outcome.ofRoots, lower.finite, upper.finite, and_self,
    if_true, madeFirst, madeSecond]
  rfl

end Room

end Factored

/-- **Quadratics with integer roots are solved exactly.**  Equal roots give one root and the
discriminant zero, and distinct ones give two roots and the exact discriminant, the lesser
root first unless `a` is negative. -/
theorem solve_integer_roots (factored : coefficients.Factored a p q) (nonzero : a ≠ 0)
    (small : a ^ 2 * (|p| + |q|) ^ 2 ≤ 2 ^ 53) (apart : p = q ∨ |p + q| ≤ 999999 * |p - q|)
    (room : p = 0 → q = 0 → 4 * |(a : ℚ)| < overflowBound) :
    ∃ report, coefficients.solve 2 settings = .ok report ∧
      (p = q → report.discriminant = some 0 ∧
        ∃ root, report.outcome = .one root ∧ root.IsPlain p) ∧
      (p ≠ q → report.discriminant = some (.ofInt (a ^ 2 * (p - q) ^ 2)) ∧
        ∃ first second, report.outcome = .two first second ∧
          first.IsPlain (if 0 < a then min p q else max p q) ∧
          second.IsPlain (if 0 < a then max p q else min p q)) := by
  have leading := factored.quadratic.not_vanishes nonzero
  have found := factored.discriminant?_eq small room
  rcases eq_or_ne p q with same | different
  · rw [factored.partsAgree_eq_true small room same, if_pos rfl] at found
    obtain ⟨root, solved, isPlain⟩ := factored.solveBy_equal small room settings nonzero same
    refine ⟨⟨2, coefficients, some 0, .one root, settings⟩, ?_,
      fun _ => ⟨rfl, root, rfl, isPlain⟩, fun different => absurd same different⟩
    rw [solve_eq_of_discriminant leading found, solved]
    rfl
  · rw [factored.partsAgree_eq_false small room nonzero different (apart.resolve_left different),
      if_neg Bool.false_ne_true] at found
    obtain ⟨first, second, solved, firstPlain, secondPlain⟩ :=
      factored.solveBy_distinct small room settings nonzero different
    have visible : a ^ 2 * (p - q) ^ 2 ≠ 0 :=
      mul_ne_zero (pow_ne_zero 2 nonzero) (pow_ne_zero 2 (sub_ne_zero.mpr different))
    have exact := (factored.difference small room).eq_ofInt visible
    refine ⟨⟨2, coefficients, some coefficients.difference, .two first second, settings⟩, ?_,
      fun same => absurd same different,
      fun _ => ⟨congrArg some exact, first, second, rfl, firstPlain, secondPlain⟩⟩
    rw [solve_eq_of_discriminant leading found, solved]
    rfl

/-- The roots of `x² - 3x + 2 = 0` are shown as `1` and `2`. -/
theorem solve_integer_roots_one_two : ∃ report first second,
    solve ⟨1, -3, 2⟩ 2 {} = .ok report ∧ report.outcome = .two first second ∧
      first.text = toString (1 : ℤ) ∧ second.text = toString (2 : ℤ) := by
  have one : IsInteger 1 1 := .ofNat 1 (by decide)
  have three : IsInteger (-3) (-3) := (IsInteger.ofNat 3 (by decide)).neg
  have two : IsInteger 2 2 := .ofNat 2 (by decide)
  have factored : Factored ⟨1, -3, 2⟩ 1 1 2 := ⟨one, three, two⟩
  obtain ⟨report, solved, -, distinct⟩ := @solve_integer_roots ⟨1, -3, 2⟩ {} 1 1 2 factored
    (by decide) (by norm_num) (.inr (by norm_num)) (fun zero => absurd zero (by decide))
  obtain ⟨-, first, second, outcome, firstPlain, secondPlain⟩ := distinct (by decide)
  exact ⟨report, first, second, solved, outcome, firstPlain.text, secondPlain.text⟩

/-! ## Without the bound -/

/-- The polynomial `2 ^ exponent · x²`. -/
def power (exponent : Nat) : Coefficients :=
  ⟨.ofInt (2 ^ exponent), 0, 0⟩

theorem factored_power {exponent : Nat} (few : exponent < 1023) :
    (power exponent).Factored (2 ^ exponent) 0 0 := by
  have one := IsInteger.ofNat 1 (by decide)
  obtain ⟨y, yFinite, same⟩ := Binary64.exists_toRat_doubled one.finite
    (few.le.trans (by decide)) (by
      rw [one.exact, Nat.cast_one, Int.cast_one, abs_one, mul_one]
      exact (pow_lt_pow_right₀ one_lt_two few).trans_le
        (Binary64.two_pow_le_overflowBound le_rfl))
  obtain ⟨finite, exact⟩ := Binary64.toRat_rounded_toRat yFinite
  have written : y.toRat = ((2 ^ exponent : ℤ) : ℚ) := by
    rw [same, one.exact]
    push_cast
    ring
  rw [written, ← Binary64.ofInt_eq_rounded] at finite exact
  have leading : IsInteger (.ofInt (2 ^ exponent)) (2 ^ exponent) := ⟨finite, exact⟩
  constructor
  · simp only [power]
    exact leading
  · rw [add_zero, mul_zero]
    exact IsInteger.zero
  · rw [mul_zero]
    exact IsInteger.zero

/-- **A polynomial with a single root zero may be out of reach.**  Both parts of its
discriminant are zero, but the computed one multiplies `4a` first, and that overflows. -/
theorem solve_power_tooLarge :
    ((power 1022).Factored (2 ^ 1022) 0 0 ∧ (2 ^ 1022 : ℤ) ≠ 0 ∧
      (2 ^ 1022 : ℤ) ^ 2 * (|0| + |0|) ^ 2 ≤ 2 ^ 53) ∧
    ∃ report, (power 1022).solve 2 {} = .ok report ∧ report.outcome = .tooLarge := by
  have missing : (power 1022).discriminant? = none := by decide +kernel
  have nonzero : ¬ (power 1022).quadratic.Vanishes := by decide +kernel
  refine ⟨⟨factored_power (by decide), pow_ne_zero _ two_ne_zero, ?_⟩,
    _, solve_eq_of_none nonzero missing, rfl⟩
  rw [abs_zero, add_zero, zero_pow two_ne_zero, mul_zero]
  norm_num

end Coefficients

end Quadratics
