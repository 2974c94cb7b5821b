import Quadratics.Equation.Reduction

/-!
# The discriminant

The discriminant of `a·x² + b·x + c` is the difference of `b²` and `4ac`.  When
these two agree up to a small fraction of the larger one, their difference is
noise and the discriminant counts as zero.  The comparison is relative, so it
does not depend on the scale of the coefficients.

There is a discriminant only where the two parts and their difference are finite.
-/

namespace Quadratics

set_option autoImplicit false

/-- The parts of a discriminant agree up to this fraction of the larger one. -/
def agreementThreshold : Binary64 :=
  Decimal.nearest ⟨false, 1, -12⟩

namespace Coefficients

/-- The square of the linear coefficient, `b²`. -/
def linearSquared (coefficients : Coefficients) : Binary64 :=
  coefficients.linear * coefficients.linear

/-- Four times the product of the other two coefficients, `4ac`. -/
def fourfoldProduct (coefficients : Coefficients) : Binary64 :=
  4 * coefficients.quadratic * coefficients.constant

/-- The difference of the two parts. -/
def difference (coefficients : Coefficients) : Binary64 :=
  coefficients.linearSquared - coefficients.fourfoldProduct

/-- Do the two parts agree but for noise? -/
def partsAgree (coefficients : Coefficients) : Bool :=
  let larger := Binary64.larger coefficients.linearSquared.abs coefficients.fourfoldProduct.abs
  decide (coefficients.difference.abs ≤ larger * agreementThreshold)

/-- The discriminant, if it and both its parts are finite. -/
def discriminant? (coefficients : Coefficients) : Option Binary64 :=
  if coefficients.difference.isFinite ∧ coefficients.linearSquared.isFinite ∧
      coefficients.fourfoldProduct.isFinite then
    some (if coefficients.partsAgree then 0 else coefficients.difference)
  else none

end Coefficients

end Quadratics
