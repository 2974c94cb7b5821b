/-!
# Binary64 numbers as exact counts

A finite binary64 number is a whole number of *units*.  One unit is the least
positive number there is, and the number one is `unitsPerOne` of them, so the
value of a finite number needs no fractions: it is a sign and a natural number,
its `magnitude`.  The magnitude of every finite number is a significand below
`2 ^ 53` shifted left by an exponent, and `Canonical` picks the one spelling of
each magnitude that the type keeps, so equal numbers of equal sign are equal
terms.

Beside the finite numbers there are two infinities and the values that are not
numbers.  Comparison goes through `rank?`, the place of a value on the line
counted in units: the infinities stand just past the largest finite number and
what is not a number has no place, so it is neither below, nor above, nor the
same as anything.
-/

namespace Quadratics

set_option autoImplicit false

namespace Binary64

/-- Significands stay below `2 ^ 53`. -/
def significandLimit : Nat := 1 <<< 53

/-- A significand with all its bits is at least `2 ^ 52`. -/
def leadingBit : Nat := 1 <<< 52

/-- The exponent of the largest finite numbers. -/
def largestExponent : Nat := 2045

/-- How many units make the number one: `2 ^ 1074`. -/
def unitsPerOne : Nat := 1 <<< 1074

/-- The spelling kept for a magnitude: a significand has all its bits unless it
counts single units. -/
def Canonical (significand exponent : Nat) : Prop :=
  significand < significandLimit ∧ (leadingBit ≤ significand ∨ exponent = 0) ∧
    exponent ≤ largestExponent

instance (significand exponent : Nat) : Decidable (Canonical significand exponent) :=
  inferInstanceAs (Decidable (_ ∧ _ ∧ _))

end Binary64

/-- A binary64 number: a signed count of units, an infinity, or no number. -/
inductive Binary64 where
  /-- The number of magnitude `significand <<< exponent`, in units. -/
  | finite (negative : Bool) (significand exponent : Nat)
      (canonical : Binary64.Canonical significand exponent)
  /-- Larger than every finite number, or smaller than every one. -/
  | infinity (negative : Bool)
  /-- Not a number; it still carries a sign. -/
  | nan (negative : Bool)
  deriving DecidableEq

namespace Binary64

/-! ## Parts of a number -/

/-- The sign, which zeros and values that are not numbers have too. -/
def negative : Binary64 → Bool
  | .finite negative _ _ _ => negative
  | .infinity negative => negative
  | .nan negative => negative

/-- The distance from zero in units, for a finite number. -/
def magnitude : Binary64 → Nat
  | .finite _ significand exponent _ => significand <<< exponent
  | .infinity _ => 0
  | .nan _ => 0

/-- A magnitude with a sign. -/
def signed (negative : Bool) (magnitude : Nat) : Int :=
  if negative then -(magnitude : Int) else magnitude

/-- The value in units, for a finite number. -/
def units (x : Binary64) : Int :=
  signed x.negative x.magnitude

/-- Is this a count of units? -/
def isFinite : Binary64 → Bool
  | .finite _ _ _ _ => true
  | .infinity _ => false
  | .nan _ => false

/-- Is this no number at all? -/
def isNaN : Binary64 → Bool
  | .finite _ _ _ _ => false
  | .infinity _ => false
  | .nan _ => true

/-- Is this a finite number with nothing after the point? -/
def isWhole (x : Binary64) : Bool :=
  x.isFinite && x.magnitude % unitsPerOne == 0

/-! ## Change of sign -/

/-- The same value with the other sign. -/
def neg : Binary64 → Binary64
  | .finite negative significand exponent canonical =>
      .finite (!negative) significand exponent canonical
  | .infinity negative => .infinity (!negative)
  | .nan negative => .nan (!negative)

instance : Neg Binary64 := ⟨neg⟩

/-- The same value without its sign. -/
def abs : Binary64 → Binary64
  | .finite _ significand exponent canonical => .finite false significand exponent canonical
  | .infinity _ => .infinity false
  | .nan _ => .nan false

/-! ## Comparison -/

/-- The place of an infinity, one step past the largest finite number. -/
def infiniteRank : Nat := significandLimit <<< largestExponent

/-- The place of a value on the line, in units. -/
def rank? : Binary64 → Option Int
  | .finite negative significand exponent _ => some (signed negative (significand <<< exponent))
  | .infinity negative => some (signed negative infiniteRank)
  | .nan _ => none

/-- Does a comparison hold between the places of two values?  It never does when
one of them is no number. -/
def compares (relation : Int → Int → Bool) (x y : Binary64) : Bool :=
  match x.rank?, y.rank? with
  | some i, some j => relation i j
  | _, _ => false

/-- Two values are the same number.  The two zeros are; what is not a number is
not even the same as itself. -/
def sameNumber (x y : Binary64) : Bool :=
  compares (fun i j => decide (i = j)) x y

instance : LT Binary64 := ⟨fun x y => compares (fun i j => decide (i < j)) x y = true⟩

instance : LE Binary64 := ⟨fun x y => compares (fun i j => decide (i ≤ j)) x y = true⟩

instance (x y : Binary64) : Decidable (x < y) :=
  inferInstanceAs (Decidable (compares _ x y = true))

instance (x y : Binary64) : Decidable (x ≤ y) :=
  inferInstanceAs (Decidable (compares _ x y = true))

/-- The larger of two values.  What is not a number gives way to the other. -/
def larger (x y : Binary64) : Binary64 :=
  if x.isNaN then y else if x < y then y else x

end Binary64

end Quadratics
