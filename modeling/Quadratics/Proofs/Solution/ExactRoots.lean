import Mathlib.Analysis.Complex.Norm
import Quadratics.Proofs.Solution.Sign

/-!
# Exact roots

The exact roots of a quadratic are complex numbers.  A number is one of them just when
`2az + b` is a square root of the exact discriminant (`isRoot_iff_square`), so the larger of
two real roots has the magnitude `(|b| + √D) / 2|a|` (`exists_real_root`), and conjugate
roots have the parts `-b / 2a` and `√-D / 2a` (`exists_conjugate_root`).  No root is farther
from zero than that (`norm_root_le`).
-/

namespace Quadratics.Coefficients

set_option autoImplicit false

variable {coefficients : Coefficients} {z : ℂ}

/-- A complex number is a root of the exact polynomial. -/
def IsRoot (coefficients : Coefficients) (z : ℂ) : Prop :=
  (coefficients.quadratic.toRat : ℂ) * z ^ 2 + (coefficients.linear.toRat : ℂ) * z +
    (coefficients.constant.toRat : ℂ) = 0

section Nonzero

variable (nonzero : coefficients.quadratic.toRat ≠ 0)
include nonzero

/-- **The roots are where the square is completed.** -/
theorem isRoot_iff_square : coefficients.IsRoot z ↔
    (2 * (coefficients.quadratic.toRat : ℂ) * z + (coefficients.linear.toRat : ℂ)) ^ 2 =
      (coefficients.exactDiscriminant : ℂ) := by
  have leading : 4 * (coefficients.quadratic.toRat : ℂ) ≠ 0 :=
    mul_ne_zero (by norm_num) (Rat.cast_ne_zero.mpr nonzero)
  have completed : (2 * (coefficients.quadratic.toRat : ℂ) * z +
      (coefficients.linear.toRat : ℂ)) ^ 2 - (coefficients.exactDiscriminant : ℂ) =
        4 * (coefficients.quadratic.toRat : ℂ) *
          ((coefficients.quadratic.toRat : ℂ) * z ^ 2 + (coefficients.linear.toRat : ℂ) * z +
            (coefficients.constant.toRat : ℂ)) := by
    rw [exactDiscriminant, exactSquare, exactProduct]
    push_cast
    ring
  rw [IsRoot, ← sub_eq_zero (b := (coefficients.exactDiscriminant : ℂ)), completed,
    mul_eq_zero_iff_left leading]

/-- **One of two real roots lies as far out as the formulas reach.** -/
theorem exists_real_root (nonneg : 0 ≤ coefficients.exactDiscriminant) :
    ∃ x : ℝ, coefficients.IsRoot x ∧ 2 * |(coefficients.quadratic.toRat : ℝ)| * |x| =
      |(coefficients.linear.toRat : ℝ)| + √(coefficients.exactDiscriminant : ℝ) := by
  have nonnegCast : (0 : ℝ) ≤ (coefficients.exactDiscriminant : ℝ) := Rat.cast_nonneg.mpr nonneg
  have leading : (coefficients.quadratic.toRat : ℝ) ≠ 0 := Rat.cast_ne_zero.mpr nonzero
  -- The root is taken with the sign of the linear coefficient, so that nothing cancels.
  obtain ⟨root, square, sum⟩ : ∃ root : ℝ,
      root ^ 2 = (coefficients.exactDiscriminant : ℝ) ∧
        |(coefficients.linear.toRat : ℝ) + root| =
          |(coefficients.linear.toRat : ℝ)| + √(coefficients.exactDiscriminant : ℝ) := by
    have rootNonneg := Real.sqrt_nonneg (coefficients.exactDiscriminant : ℝ)
    rcases le_total 0 (coefficients.linear.toRat : ℝ) with sign | sign
    · refine ⟨√(coefficients.exactDiscriminant : ℝ), Real.sq_sqrt nonnegCast, ?_⟩
      rw [abs_of_nonneg sign, abs_of_nonneg (add_nonneg sign rootNonneg)]
    · refine ⟨-√(coefficients.exactDiscriminant : ℝ), ?_, ?_⟩
      · rw [neg_sq, Real.sq_sqrt nonnegCast]
      · rw [abs_of_nonpos sign, abs_of_nonpos (by linarith)]
        ring
  refine ⟨-((coefficients.linear.toRat : ℝ) + root) / (2 * (coefficients.quadratic.toRat : ℝ)),
    ?_, ?_⟩
  · rw [isRoot_iff_square nonzero]
    have completed : 2 * (coefficients.quadratic.toRat : ℝ) *
        (-((coefficients.linear.toRat : ℝ) + root) / (2 * (coefficients.quadratic.toRat : ℝ))) +
          (coefficients.linear.toRat : ℝ) = -root := by
      field_simp
      ring
    have squared := congrArg (fun value : ℝ => value ^ 2) completed
    rw [neg_sq, square] at squared
    exact_mod_cast squared
  · rw [abs_div, abs_neg, sum, abs_mul, abs_two]
    field_simp

/-- **Conjugate roots have the parts of the formulas.** -/
theorem exists_conjugate_root (negative : coefficients.exactDiscriminant ≤ 0) :
    ∃ z : ℂ, coefficients.IsRoot z ∧
      2 * |(coefficients.quadratic.toRat : ℝ)| * |z.re| = |(coefficients.linear.toRat : ℝ)| ∧
      2 * |(coefficients.quadratic.toRat : ℝ)| * |z.im| =
        √(-(coefficients.exactDiscriminant : ℝ)) := by
  have leading : (coefficients.quadratic.toRat : ℝ) ≠ 0 := Rat.cast_ne_zero.mpr nonzero
  have opposite : (0 : ℝ) ≤ -(coefficients.exactDiscriminant : ℝ) :=
    neg_nonneg.mpr (Rat.cast_nonpos.mpr negative)
  have rootNonneg := Real.sqrt_nonneg (-(coefficients.exactDiscriminant : ℝ))
  have square := Real.sq_sqrt opposite
  generalize √(-(coefficients.exactDiscriminant : ℝ)) = root at *
  refine ⟨⟨-(coefficients.linear.toRat : ℝ) / (2 * (coefficients.quadratic.toRat : ℝ)),
    root / (2 * (coefficients.quadratic.toRat : ℝ))⟩, ?_, ?_, ?_⟩
  · have completed : 2 * (coefficients.quadratic.toRat : ℂ) *
        ⟨-(coefficients.linear.toRat : ℝ) / (2 * (coefficients.quadratic.toRat : ℝ)),
          root / (2 * (coefficients.quadratic.toRat : ℝ))⟩ + (coefficients.linear.toRat : ℂ) =
        (root : ℂ) * Complex.I := by
      have leadingCast : (coefficients.quadratic.toRat : ℂ) ≠ 0 := Rat.cast_ne_zero.mpr nonzero
      rw [Complex.mk_eq_add_mul_I]
      push_cast
      field_simp
      ring
    rw [isRoot_iff_square nonzero, completed, mul_pow, Complex.I_sq, mul_neg_one,
      neg_eq_iff_eq_neg]
    exact_mod_cast square
  · rw [abs_div, abs_neg, abs_mul, abs_two]
    field_simp
  · rw [abs_div, abs_of_nonneg rootNonneg, abs_mul, abs_two]
    field_simp

/-- **No root lies farther out.** -/
theorem norm_root_le {bound : ℝ} (boundNonneg : 0 ≤ bound)
    (inside : |(coefficients.exactDiscriminant : ℝ)| ≤ bound ^ 2) (root : coefficients.IsRoot z) :
    2 * |(coefficients.quadratic.toRat : ℝ)| * ‖z‖ ≤
      |(coefficients.linear.toRat : ℝ)| + bound := by
  have square := (isRoot_iff_square nonzero).mp root
  have completed : ‖2 * (coefficients.quadratic.toRat : ℂ) * z +
      (coefficients.linear.toRat : ℂ)‖ ≤ bound := by
    refine le_of_sq_le_sq ?_ boundNonneg
    rw [← norm_pow, square, Complex.norm_ratCast]
    exact inside
  have scaled : ‖2 * (coefficients.quadratic.toRat : ℂ) * z‖ =
      2 * |(coefficients.quadratic.toRat : ℝ)| * ‖z‖ := by
    rw [norm_mul, norm_mul, Complex.norm_two, Complex.norm_ratCast]
  have triangle := norm_sub_le (2 * (coefficients.quadratic.toRat : ℂ) * z +
    (coefficients.linear.toRat : ℂ)) (coefficients.linear.toRat : ℂ)
  rw [add_sub_cancel_right, scaled, Complex.norm_ratCast] at triangle
  linarith

end Nonzero

end Quadratics.Coefficients
