import Quadratics.Binary64.Arithmetic
import Quadratics.Decimal.Shortest

/-!
# Numbers shown to so many places

A report shows a number as a whole number when it is one but for rounding noise,
and to a fixed number of decimal places otherwise.  Rounding to places is done
in binary64 arithmetic: the number is scaled by a power of ten, rounded to a
whole number, and scaled back.  The scale is found by repeated squaring.  A
count of places is read as a signed 32 bit word, so a large count wraps around
and may scale down instead of up.
-/

namespace Quadratics.Binary64

set_option autoImplicit false

/-- The places at which a number is compared with whole numbers. -/
def noisePlaces : Nat := 8

/-- A count of places as a signed 32 bit word. -/
def placesWord (places : Nat) : Int :=
  Int.bmod places (1 <<< 32)

/-- The product of those successive squares of ten that the bits of a count
select, least bit first. -/
def squaredTens (count : Nat) : Binary64 :=
  let step := fun (product, square) bit =>
    (if count.testBit bit then product * square else product, square * square)
  ((List.range 32).foldl step ((1, 10) : Binary64 × Binary64)).1

/-- The power of ten that scales a number for rounding to so many places. -/
def placesScale (places : Nat) : Binary64 :=
  let word := placesWord places
  if word < 0 then 1 / squaredTens word.natAbs else squaredTens word.natAbs

/-- The number rounded to so many places; never a negative zero. -/
def roundTo (x : Binary64) (places : Nat) : Binary64 :=
  (x * placesScale places).round / placesScale places + 0

/-- Is this a whole number, but for noise beyond `noisePlaces`? -/
def looksWhole (x : Binary64) : Bool :=
  (x.roundTo noisePlaces).isWhole

/-- The text that a report gives of a number: whole if it looks whole, and
otherwise to so many places. -/
def shown (x : Binary64) (places : Nat) : String :=
  (x.roundTo (if x.looksWhole then 0 else places)).text

end Quadratics.Binary64
