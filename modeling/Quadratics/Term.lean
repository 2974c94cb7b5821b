import Quadratics.Decimal.Shortest
import Quadratics.Binary64.Arithmetic

/-!
# Terms

A term is one monomial, a binary64 number times a power of the unknown.  Terms
of the same power add; a term is also added to a bare number when that number is
zero or the term is a constant.  Adding anything else is a mismatch of powers,
which keeps both sides of the failed sum.

Numbers are compared as numbers here, so the two zeros count as equal and what
is not a number differs from itself.
-/

namespace Quadratics

set_option autoImplicit false

/-- The monomial `value * x^power`. -/
structure Term where
  /-- The coefficient. -/
  value : Binary64
  /-- The power of the unknown. -/
  power : UInt32
  deriving DecidableEq

/-- What is added to a term. -/
inductive Addend where
  /-- A bare number, without a power of its own. -/
  | number (value : Binary64)
  /-- A term. -/
  | term (summand : Term)
  deriving DecidableEq

/-- A sum that failed: its left term, and its right one as it was to be added. -/
structure PowerMismatch where
  /-- The term added to. -/
  left : Term
  /-- The term that was to be added. -/
  right : Term
  deriving DecidableEq

namespace Term

/-- A term without the unknown. -/
def constant (value : Binary64) : Term :=
  ⟨value, 0⟩

/-- Does the coefficient vanish? -/
def isZero (term : Term) : Bool :=
  term.value.sameNumber 0

/-- The term with the other sign. -/
def neg (term : Term) : Term :=
  ⟨-term.value, term.power⟩

/-- Have two terms the same power? -/
def isLike (left right : Term) : Bool :=
  left.power == right.power

/-- Two terms agree in power, and in value as numbers. -/
def sameTerm (left right : Term) : Bool :=
  left.value.sameNumber right.value && left.power == right.power

/-- A term is the same as a number when it is that constant; every term that
vanishes is the same as zero. -/
def sameAsNumber (term : Term) (value : Binary64) : Bool :=
  if value.sameNumber 0 then term.isZero else term.power == 0 && term.value.sameNumber value

/-- The sum of two terms of the same power. -/
def addTerm (left right : Term) : Except PowerMismatch Term :=
  if left.isLike right then .ok ⟨left.value + right.value, left.power⟩
  else .error ⟨left, right⟩

/-- The sum of a term and an addend.  The number zero adds to every term, and
any other number is a constant. -/
def add (left : Term) (addend : Addend) : Except PowerMismatch Term :=
  match addend with
  | .number value =>
      if value.sameNumber 0 then .ok left else left.addTerm (constant value)
  | .term right => left.addTerm right

end Term

/-- The addend with the other sign. -/
def Addend.neg : Addend → Addend
  | .number value => .number (-value)
  | .term right => .term right.neg

/-- The difference of a term and an addend. -/
def Term.sub (left : Term) (addend : Addend) : Except PowerMismatch Term :=
  left.add addend.neg

/-- The text of a term.  Zero is written without a sign. -/
def Term.text (term : Term) : String :=
  (term.value + 0).text ++ " * x^" ++ toString term.power.toNat

/-- What is said of a sum that failed. -/
def PowerMismatch.message (mismatch : PowerMismatch) : String :=
  "[" ++ mismatch.left.text ++ "] | [" ++ mismatch.right.text ++
    "] -> Terms of different powers cannot be combined"

end Quadratics
