import Quadratics.Binary64.Rounding

/-!
# Arithmetic on binary64 numbers

Sums, products, quotients and square roots of finite numbers are computed
exactly, in units, and rounded once.  The other cases follow the signs: a sum of
opposite infinities, a product of zero and an infinity, a quotient of two zeros
or two infinities and the root of a negative number are not numbers, and the
value given for them has the negative sign.  An operand that is not a number
already is passed on as it is, the left one first.

A square root of a binary64 number is never halfway between two neighbours, so
its rounding has no tie to break: `sqrt` compares the number with the square of
the halfway point.
-/

namespace Quadratics.Binary64

set_option autoImplicit false

/-- The value of an operation that has no result. -/
def undefined : Binary64 := .nan true

/-- The exact sum of two signed counts, rounded.  A sum of zeros is negative when
both are, and any other sum that vanishes is positive. -/
def addFinite (x y : Binary64) : Binary64 :=
  let sum := x.units + y.units
  let negative := if sum = 0 then x.negative && y.negative else decide (sum < 0)
  ofQuotient negative sum.natAbs 1

/-- The sum. -/
def add (x y : Binary64) : Binary64 :=
  match x, y with
  | .nan negative, _ => .nan negative
  | _, .nan negative => .nan negative
  | .infinity left, .infinity right => if left = right then .infinity left else undefined
  | .infinity negative, .finite _ _ _ _ => .infinity negative
  | .finite _ _ _ _, .infinity negative => .infinity negative
  | .finite _ _ _ _, .finite _ _ _ _ => addFinite x y

/-- The product. -/
def mul (x y : Binary64) : Binary64 :=
  let negative := x.negative != y.negative
  match x, y with
  | .nan negative, _ => .nan negative
  | _, .nan negative => .nan negative
  | .infinity _, .infinity _ => .infinity negative
  | .infinity _, .finite _ _ _ _ => if y.magnitude = 0 then undefined else .infinity negative
  | .finite _ _ _ _, .infinity _ => if x.magnitude = 0 then undefined else .infinity negative
  | .finite _ _ _ _, .finite _ _ _ _ =>
      ofQuotient negative (x.magnitude * y.magnitude) unitsPerOne

/-- The quotient.  A number divided by zero is an infinity. -/
def div (x y : Binary64) : Binary64 :=
  let negative := x.negative != y.negative
  match x, y with
  | .nan negative, _ => .nan negative
  | _, .nan negative => .nan negative
  | .infinity _, .infinity _ => undefined
  | .infinity _, .finite _ _ _ _ => .infinity negative
  | .finite _ _ _ _, .infinity _ => ofQuotient negative 0 1
  | .finite _ _ _ _, .finite _ _ _ _ =>
      if y.magnitude = 0 then if x.magnitude = 0 then undefined else .infinity negative
      else ofQuotient negative (x.magnitude * unitsPerOne) y.magnitude

instance : Add Binary64 := ⟨add⟩

instance : Sub Binary64 := ⟨fun x y => add x (neg y)⟩

instance : Mul Binary64 := ⟨mul⟩

instance : Div Binary64 := ⟨div⟩

/-- The root of a positive count: the integer part of the root, on the grid of a
full significand, or its successor when the square of the point halfway between
them is below the count. -/
def sqrtCount (count : Nat) : Binary64 :=
  let exponent := count.log2 / 2 - 52
  let root := Nat.sqrt (count >>> (2 * exponent))
  let halfway := (2 * root + 1) * (2 * root + 1)
  ofScaled false (if halfway <<< (2 * exponent) < 4 * count then root + 1 else root) exponent

/-- The square root.  Zeros are their own roots. -/
def sqrt (x : Binary64) : Binary64 :=
  match x with
  | .nan negative => .nan negative
  | .infinity negative => if negative then undefined else .infinity false
  | .finite negative _ _ _ =>
      if x.magnitude = 0 then x
      else if negative then undefined
      else sqrtCount (x.magnitude * unitsPerOne)

/-- The nearest whole number, a half going away from zero. -/
def round (x : Binary64) : Binary64 :=
  match x with
  | .nan negative => .nan negative
  | .infinity negative => .infinity negative
  | .finite negative _ _ _ =>
      let wholes := (2 * x.magnitude + unitsPerOne) / (2 * unitsPerOne)
      ofQuotient negative (wholes * unitsPerOne) 1

/-- The whole number a finite number holds before its point. -/
def truncate (x : Binary64) : Int :=
  signed x.negative (x.magnitude / unitsPerOne)

end Quadratics.Binary64
