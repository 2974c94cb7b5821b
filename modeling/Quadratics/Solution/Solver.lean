import Quadratics.Solution.Basic
import Quadratics.Solution.Discriminant

/-!
# Solving an equation

A quadratic is solved by its discriminant, a linear equation by one division, and
an equation without the unknown by a look at its constant, all in binary64
arithmetic.  A root that this arithmetic cannot reach makes the outcome too
large.

Whoever asks for the solution of a polynomial promises that its leading
coefficient does not vanish.  The degree and the coefficients of a reduced
equation keep that promise.
-/

namespace Quadratics

set_option autoImplicit false

/-! ## Roots -/

namespace Outcome

/-- One real root, unless it is too large. -/
def ofRoot (value : Binary64) (settings : Settings) : Except Misuse Outcome :=
  if value.isFinite then (RealRoot.ofValue value settings).map .one
  else .ok .tooLarge

/-- Two real roots, unless one of them is too large. -/
def ofRoots (first second : Binary64) (settings : Settings) : Except Misuse Outcome :=
  if first.isFinite ∧ second.isFinite then
    match RealRoot.ofValue first settings with
    | .error misuse => .error misuse
    | .ok first => (RealRoot.ofValue second settings).map fun second => .two first second
  else .ok .tooLarge

/-- Two conjugate roots, unless their parts are too large.  The one with the
imaginary part subtracted comes first. -/
def ofConjugates (real radicand denominator : Binary64) (places : Nat) : Outcome :=
  let root := fun negative => (⟨real, radicand, negative, denominator, places⟩ : ConjugateRoot)
  if (root false).realPart.isFinite ∧ (root false).imaginaryPart.isFinite then
    .conjugates (root true) (root false)
  else .tooLarge

end Outcome

/-! ## Polynomials of each degree -/

namespace Coefficients

/-- A polynomial without the unknown. -/
def solveConstant (coefficients : Coefficients) : Outcome :=
  if coefficients.constant.sameNumber 0 then .everyNumber else .noNumber

/-- A polynomial of degree one. -/
def solveLinear (coefficients : Coefficients) (settings : Settings) : Except Misuse Outcome :=
  if coefficients.linear.sameNumber 0 then .error .vanishingLinearCoefficient
  else Outcome.ofRoot (-coefficients.constant / coefficients.linear) settings

/-- A polynomial of degree two with the given discriminant. -/
def solveBy (coefficients : Coefficients) (discriminant : Binary64) (settings : Settings) :
    Except Misuse Outcome :=
  let negated := -coefficients.linear
  let denominator := 2 * coefficients.quadratic
  if 0 < discriminant then
    let root := discriminant.sqrt
    Outcome.ofRoots ((negated - root) / denominator) ((negated + root) / denominator) settings
  else if discriminant.sameNumber 0 then Outcome.ofRoot (negated / denominator) settings
  else .ok (.ofConjugates (negated + 0) (-discriminant) denominator settings.places)

/-- A polynomial of degree two. -/
def solveQuadratic (coefficients : Coefficients) (settings : Settings) : Except Misuse Outcome :=
  if coefficients.quadratic.sameNumber 0 then .error .vanishingQuadraticCoefficient
  else
    match coefficients.discriminant? with
    | some discriminant => coefficients.solveBy discriminant settings
    | none => .ok .tooLarge

/-- The outcome for a polynomial of the given degree. -/
def outcome (coefficients : Coefficients) (degree : UInt32) (settings : Settings) :
    Except Misuse Outcome :=
  if degree = 0 then .ok coefficients.solveConstant
  else if degree = 1 then coefficients.solveLinear settings
  else if degree = 2 then coefficients.solveQuadratic settings
  else .ok .unsupported

/-- Find where a polynomial of the given degree vanishes. -/
def solve (coefficients : Coefficients) (degree : UInt32) (settings : Settings) :
    Except Misuse Report :=
  let discriminant := if degree = 2 then coefficients.discriminant? else none
  (coefficients.outcome degree settings).map fun outcome =>
    ⟨degree, coefficients, discriminant, outcome, settings⟩

end Coefficients

/-- Solve an equation by its reduced form. -/
def Equation.solve (equation : Equation) (settings : Settings) : Except Misuse Report :=
  equation.coefficients.solve equation.reduce.degree settings

end Quadratics
