import Quadratics.Binary64.Arithmetic
import Quadratics.Misuse

/-!
# Near fractions with a bounded denominator

`closest?` looks for a fraction near a binary64 number.  The number is first
rounded to eight decimal places, which makes it an exact fraction.  If that has
too large a denominator, its continued fraction is expanded as long as the
convergents stay within the bound.  The candidates are then the last convergent
and the semiconvergent that goes as far beyond the older one as the bound
allows; the target lies between the two.  The one that is nearer in binary64
arithmetic is taken, and the convergent when neither is.

The state of the expansion is a value, `Expansion`, and one step of it is
`Expansion.next`, so what holds of every step can be said of the type.
-/

namespace Quadratics.Fraction

set_option autoImplicit false

/-! ## Continued fractions -/

/-- A continued fraction expanded so far: the last two convergents, and the pair
whose quotient is still to be expanded. -/
structure Expansion where
  /-- The numerator of the last convergent. -/
  numerator : Nat
  /-- The denominator of the last convergent. -/
  denominator : Nat
  /-- The numerator of the convergent before it. -/
  olderNumerator : Nat
  /-- The denominator of the convergent before it. -/
  olderDenominator : Nat
  /-- What is divided next. -/
  dividend : Nat
  /-- What it is divided by; the expansion is complete when it is zero. -/
  divisor : Nat
  deriving DecidableEq

namespace Expansion

/-- Nothing is expanded yet, and the convergents are the formal `1/0` and `0/1`. -/
def start (dividend divisor : Nat) : Expansion :=
  ⟨1, 0, 0, 1, dividend, divisor⟩

/-- The next partial quotient. -/
def quotient (state : Expansion) : Nat :=
  state.dividend / state.divisor

/-- The expansion with one more convergent. -/
def next (state : Expansion) : Expansion where
  numerator := state.olderNumerator + state.quotient * state.numerator
  denominator := state.olderDenominator + state.quotient * state.denominator
  olderNumerator := state.numerator
  olderDenominator := state.denominator
  dividend := state.divisor
  divisor := state.dividend % state.divisor

/-- The expansion continued while the convergents keep within the bound. -/
def walk (bound : Nat) (state : Expansion) : Expansion :=
  if state.divisor = 0 then state
  else if bound < state.next.denominator then state
  else walk bound state.next
termination_by state.divisor
decreasing_by exact Nat.mod_lt _ (Nat.pos_of_ne_zero ‹_›)

/-- The last convergent. -/
def convergent (state : Expansion) : Rat :=
  mkRat state.numerator state.denominator

/-- How often the last convergent can be added to the older one within the bound. -/
def semiSteps (bound : Nat) (state : Expansion) : Nat :=
  (bound - state.olderDenominator) / state.denominator

/-- The older convergent moved toward the last one as far as the bound allows. -/
def semiconvergent (bound : Nat) (state : Expansion) : Rat :=
  mkRat (state.olderNumerator + state.semiSteps bound * state.numerator : Nat)
    (state.olderDenominator + state.semiSteps bound * state.denominator)

end Expansion

/-! ## The search -/

/-- A fraction as a binary64 number: its numerator divided by its denominator. -/
def toBinary64 (fraction : Rat) : Binary64 :=
  .ofInt fraction.num / .ofInt fraction.den

/-- How far a fraction is from a target, in binary64 arithmetic. -/
def distance (target fraction : Rat) : Binary64 :=
  (toBinary64 fraction - toBinary64 target).abs

/-- The fraction near a positive target or zero whose denominator keeps within
the bound. -/
def withinBound (bound : Nat) (target : Rat) : Rat :=
  if target.den ≤ bound then target
  else
    let expansion := (Expansion.start target.num.natAbs target.den).walk bound
    let convergent := expansion.convergent
    let semiconvergent := expansion.semiconvergent bound
    if distance target convergent ≤ distance target semiconvergent then convergent
    else semiconvergent

/-- A number is taken to eight places before a fraction is looked for. -/
def scale : Nat := 100000000

/-- Scaled numbers of this size are not looked at: `2 ^ 63`. -/
def scaledLimit : Binary64 := .ofInt 9223372036854775808

/-- The exact fraction that a number has when it is taken to eight places, if it
is not too large for that. -/
def roundedTarget? (value : Binary64) : Option Rat :=
  let scaled := (value * .ofInt scale).round
  if !scaled.isFinite ∨ scaledLimit ≤ scaled.abs then none
  else some (mkRat scaled.truncate scale)

/-- The fraction near a number whose denominator keeps within the bound, if the
number is not too large to be looked at.  The sign is left aside in the search. -/
def closest? (value : Binary64) (bound : Int) : Except Misuse (Option Rat) :=
  if bound < 1 then .error .noDenominatorAllowed
  else .ok <| (roundedTarget? value).map fun target =>
    if target.num < 0 then -withinBound bound.toNat (-target)
    else withinBound bound.toNat target

/-- A fraction is written with a bar unless it is whole. -/
def text (fraction : Rat) : String :=
  if fraction.den = 1 then toString fraction.num
  else toString fraction.num ++ "/" ++ toString fraction.den

end Quadratics.Fraction
