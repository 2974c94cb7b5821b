import Quadratics.Binary64.Places
import Quadratics.Equation.Reduction
import Quadratics.Fraction

/-!
# Solutions of an equation

An equation of degree at most two has every number as a solution, or none, or
one or two real roots, or two conjugate roots.  A root of an equation whose
coefficients are too large may be out of reach of binary64, and an equation of
higher degree is not solved at all; these are outcomes too.

A real root keeps a fraction beside its value when the fraction tells more: the
value is not whole, and at the shown places the fraction agrees with it.
-/

namespace Quadratics

set_option autoImplicit false

/-! ## Settings -/

/-- The places shown unless others are asked for. -/
def defaultPlaces : Nat := 3

/-- The largest denominator shown unless another is asked for. -/
def defaultDenominatorBound : Int := 128

/-- How solutions are presented. -/
structure Settings where
  /-- Is each step explained? -/
  verbose : Bool := false
  /-- The decimal places of values that are not whole. -/
  places : Nat := defaultPlaces
  /-- The largest denominator of a fraction. -/
  denominatorBound : Int := defaultDenominatorBound
  deriving DecidableEq

/-! ## Roots -/

/-- A real root. -/
structure RealRoot where
  /-- The root as a binary64 number. -/
  value : Binary64
  /-- A fraction that agrees with the value at the shown places. -/
  fraction : Option Rat
  /-- The decimal places shown. -/
  places : Nat
  deriving DecidableEq

/-- Does a fraction agree with a value at the shown places? -/
def RealRoot.agrees (value : Binary64) (places : Nat) (fraction : Rat) : Bool :=
  ((Fraction.toBinary64 fraction).roundTo places).sameNumber (value.roundTo places)

/-- The fraction kept beside a value: none beside one that looks whole. -/
def RealRoot.fractionBeside (value : Binary64) (settings : Settings) :
    Except Misuse (Option Rat) :=
  if value.looksWhole then .ok none
  else
    (Fraction.closest? value settings.denominatorBound).map fun found =>
      found.filter (agrees value settings.places)

/-- The root with the given value.  A negative zero is made positive. -/
def RealRoot.ofValue (value : Binary64) (settings : Settings) : Except Misuse RealRoot :=
  let unsignedZero := value + 0
  (fractionBeside unsignedZero settings).map fun fraction =>
    ⟨unsignedZero, fraction, settings.places⟩

/-- One of two conjugate roots, `(real ± √radicand·i) / denominator`. -/
structure ConjugateRoot where
  /-- The real part of the numerator. -/
  real : Binary64
  /-- What the imaginary part of the numerator is the root of. -/
  radicand : Binary64
  /-- Is the imaginary part subtracted? -/
  negative : Bool
  /-- The denominator. -/
  denominator : Binary64
  /-- The decimal places shown. -/
  places : Nat
  deriving DecidableEq

namespace ConjugateRoot

/-- The real part of the root. -/
def realPart (root : ConjugateRoot) : Binary64 :=
  root.real / root.denominator + 0

/-- The imaginary part of the root. -/
def imaginaryPart (root : ConjugateRoot) : Binary64 :=
  let magnitude := root.radicand.sqrt / root.denominator
  if root.negative then -magnitude else magnitude

end ConjugateRoot

/-! ## Outcomes -/

/-- What solving an equation comes to. -/
inductive Outcome where
  /-- Every number is a solution. -/
  | everyNumber
  /-- No number is a solution. -/
  | noNumber
  /-- There is one real root. -/
  | one (root : RealRoot)
  /-- There are two real roots. -/
  | two (first second : RealRoot)
  /-- There are two conjugate roots. -/
  | conjugates (first second : ConjugateRoot)
  /-- The degree is too high. -/
  | unsupported
  /-- The discriminant or a root is too large for binary64. -/
  | tooLarge
  deriving DecidableEq

/-- An outcome, and all that it was found from. -/
structure Report where
  /-- The degree of the polynomial. -/
  degree : UInt32
  /-- The coefficients of the polynomial. -/
  coefficients : Coefficients
  /-- The discriminant, if one was computed. -/
  discriminant : Option Binary64
  /-- What solving came to. -/
  outcome : Outcome
  /-- How the report is presented. -/
  settings : Settings
  deriving DecidableEq

/-- The real roots of a report, if they are not every number. -/
def Report.realRoots (report : Report) : List Binary64 :=
  match report.outcome with
  | .one root => [root.value]
  | .two first second => [first.value, second.value]
  | _ => []

end Quadratics
