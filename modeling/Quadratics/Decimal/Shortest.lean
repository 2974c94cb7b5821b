import Quadratics.Decimal.Basic

/-!
# The shortest decimal that reads back

A finite binary64 number is written with the fewest digits that still read back
as it.  The decimals whose last digit stands at one place form a grid, and a
coarser grid means fewer digits.  The two points of a grid that enclose the
number are the only ones worth trying: if any point reads back, one of them
does.  `shortest` tries the grids from the coarsest down, takes the first that
has a hit, and of two hits the nearer one; if both are equally near it takes the
one farther from zero.

The expansion of the number itself, which always reads back, stands at the end
of the search, so what is written reads back whatever grids were tried.
-/

namespace Quadratics.Decimal

set_option autoImplicit false

/-- A magnitude as a quotient in steps of the grid at `place`. -/
def gridQuotient (magnitude : Nat) (place : Int) : Nat × Nat :=
  match place with
  | .ofNat zeros => (magnitude, powerOfTen zeros * Binary64.unitsPerOne)
  | .negSucc places => (magnitude * powerOfTen (places + 1), Binary64.unitsPerOne)

/-- The point of the grid at `place` that reads back as the number, if there is
one: of two the nearer, and of equally near ones the farther from zero. -/
def onGrid? (number : Binary64) (place : Int) : Option Decimal :=
  let (numerator, denominator) := gridQuotient number.magnitude place
  let lower : Decimal := ⟨number.negative, numerator / denominator, place⟩
  let upper : Decimal := ⟨number.negative, numerator / denominator + 1, place⟩
  let upperIsFarther := 2 * (numerator % denominator) < denominator
  if lower.nearest = number ∧ (upper.nearest ≠ number ∨ upperIsFarther) then some lower
  else if upper.nearest = number then some upper
  else none

/-- The first place to try.  A unit is below `10 ^ -323`, so a magnitude of so many
digits is below a one at this place. -/
def coarsestPlace (magnitude : Nat) : Int :=
  ((digits magnitude).length : Int) - 323

/-- The places to try, coarsest first.  Seventeen digits always suffice. -/
def searchPlaces (magnitude : Nat) : List Int :=
  let coarsest := coarsestPlace magnitude
  (List.range 20).map fun finer : Nat => coarsest - (finer : Int)

/-- The decimal equal to a number: a unit is `5 ^ 1074` at the place `-1074`. -/
def expansion (number : Binary64) : Decimal :=
  ⟨number.negative, number.magnitude * Nat.pow 5 1074, -1074⟩

/-- The shortest decimal that reads back as a finite number. -/
def shortest (number : Binary64) : Decimal :=
  if number.magnitude = 0 then ⟨number.negative, 0, 0⟩
  else ((searchPlaces number.magnitude).findSome? (onGrid? number)).getD (expansion number)

end Quadratics.Decimal

namespace Quadratics

/-- The text of a number: the shortest decimal that reads back, or a word. -/
def Binary64.text (number : Binary64) : String :=
  match number with
  | .finite _ _ _ _ => String.ofList (Decimal.shortest number).characters
  | .infinity negative => if negative then "-inf" else "inf"
  | .nan _ => "NaN"

end Quadratics
