import Quadratics.Binary64.Basic

/-!
# Rounding to the nearest binary64 number

Every operation on binary64 numbers is an exact operation followed by one
rounding, and the exact result is always a quotient of natural numbers, counted
in units.  `ofQuotient` is that rounding.  It reads off the binary length of the
quotient how many low bits a significand cannot hold, takes the nearest multiple
of the last bit it can hold, and lets a half go to the even neighbour.  Counting
in units makes the numbers near zero no special case: their quotient is short,
so no bits are dropped beyond the unit itself.

A result too long for the largest exponent is an infinity.
-/

namespace Quadratics.Binary64

set_option autoImplicit false

/-- The natural number nearest to `numerator / denominator`, a half going to the
even neighbour. -/
def nearestEven (numerator denominator : Nat) : Nat :=
  let quotient := numerator / denominator
  let remainder := numerator % denominator
  if 2 * remainder < denominator then quotient
  else if denominator < 2 * remainder then quotient + 1
  else quotient + quotient % 2

/-- The number of magnitude `significand <<< exponent`.  A significand that has
grown to `2 ^ 53` is halved, and an exponent past the largest gives an infinity. -/
def ofScaled (negative : Bool) (significand exponent : Nat) : Binary64 :=
  let carried := significand = significandLimit
  let kept := if carried then leadingBit else significand
  let shift := if carried then exponent + 1 else exponent
  if canonical : Canonical kept shift then .finite negative kept shift canonical
  else .infinity negative

/-- How many low bits of a quotient a significand cannot hold. -/
def droppedBits (numerator denominator : Nat) : Nat :=
  (numerator / denominator).log2 - 52

/-- The number nearest to `numerator / denominator` units, with the given sign. -/
def ofQuotient (negative : Bool) (numerator denominator : Nat) : Binary64 :=
  let exponent := droppedBits numerator denominator
  ofScaled negative (nearestEven numerator (denominator <<< exponent)) exponent

/-- The number nearest to a whole number. -/
def ofInt (value : Int) : Binary64 :=
  ofQuotient (decide (value < 0)) (value.natAbs * unitsPerOne) 1

instance (value : Nat) : OfNat Binary64 value := ⟨ofInt value⟩

end Quadratics.Binary64
