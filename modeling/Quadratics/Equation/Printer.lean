import Quadratics.Equation.Basic

/-!
# The text of an equation

A side is written as its terms in order.  The first term carries its sign in its
number; every other term has its sign in the operator in front of it.  A side
without terms is written as zero.
-/

namespace Quadratics.Equation

set_option autoImplicit false

/-- A term that follows another, with its operator. -/
def laterText (term : Term) : String :=
  if term.value.negative then " - " ++ term.neg.text else " + " ++ term.text

/-- The text of a side. -/
def sideText : List Term → String
  | [] => "0"
  | first :: later => later.foldl (fun text term => text ++ laterText term) first.text

/-- The text of an equation. -/
def text (equation : Equation) : String :=
  sideText equation.left ++ " = " ++ sideText equation.right

end Quadratics.Equation
