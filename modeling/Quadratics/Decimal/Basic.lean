import Quadratics.Binary64.Rounding

/-!
# Decimal numerals

A decimal numeral is a sign, a natural number and the place of its last digit.
It is read as the nearest binary64 number (`nearest`) and written positionally,
without an exponent (`characters`): digits in front of the point, at least one,
and digits behind it only when the last place is behind it.
-/

namespace Quadratics

set_option autoImplicit false

/-- The decimal number `± coefficient · 10 ^ place`. -/
structure Decimal where
  /-- Is a minus sign in front? -/
  negative : Bool
  /-- The digits as one natural number. -/
  coefficient : Nat
  /-- The place of the last digit: `0` for ones, `-2` for hundredths. -/
  place : Int
  deriving DecidableEq

namespace Decimal

/-- The natural number that `count` zeros after a one write. -/
def powerOfTen (count : Nat) : Nat :=
  Nat.pow 10 count

/-- The binary64 number nearest to a decimal. -/
def nearest (decimal : Decimal) : Binary64 :=
  match decimal.place with
  | .ofNat zeros =>
      .ofQuotient decimal.negative
        (decimal.coefficient * powerOfTen zeros * Binary64.unitsPerOne) 1
  | .negSucc places =>
      .ofQuotient decimal.negative (decimal.coefficient * Binary64.unitsPerOne)
        (powerOfTen (places + 1))

/-- The digits of a natural number. -/
def digits (value : Nat) : List Char :=
  Nat.toDigits 10 value

/-- The digits of a natural number, with zeros in front up to the given length. -/
def paddedDigits (length value : Nat) : List Char :=
  List.replicate (length - (digits value).length) '0' ++ digits value

/-- The digits of a decimal without its sign. -/
def positional (coefficient : Nat) (place : Int) : List Char :=
  match place with
  | .ofNat zeros => digits coefficient ++ List.replicate zeros '0'
  | .negSucc places =>
      let written := paddedDigits (places + 2) coefficient
      let whole := written.length - (places + 1)
      written.take whole ++ '.' :: written.drop whole

/-- The positional form of a decimal. -/
def characters (decimal : Decimal) : List Char :=
  let unsigned := positional decimal.coefficient decimal.place
  if decimal.negative then '-' :: unsigned else unsigned

end Decimal

end Quadratics
