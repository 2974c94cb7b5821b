/-!
# Misuse of the solver

The solver and the fraction search rely on facts that their callers promise.  A
broken promise is reported as the cause it is, and not as an answer.
-/

namespace Quadratics

set_option autoImplicit false

/-- The promises that a caller can break. -/
inductive Misuse where
  /-- The leading coefficient of a polynomial of degree one vanishes. -/
  | vanishingLinearCoefficient
  /-- The leading coefficient of a polynomial of degree two vanishes. -/
  | vanishingQuadraticCoefficient
  /-- No denominator is allowed at all. -/
  | noDenominatorAllowed
  deriving DecidableEq

/-- What a broken promise is called. -/
def Misuse.message : Misuse → String
  | .vanishingLinearCoefficient => "A degree 1 polynomial can't have b = 0"
  | .vanishingQuadraticCoefficient => "A degree 2 polynomial can't have a = 0"
  | .noDenominatorAllowed => "The max denominator must be at least 1"

end Quadratics
