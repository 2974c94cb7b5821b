import Quadratics.Term

/-!
# Equations

An equation is a list of terms on each side, in the order in which they were
written, and a note whether it has been brought to its reduced form already.
-/

namespace Quadratics

set_option autoImplicit false

/-- How the terms of an equation stand: as somebody wrote them, or reduced. -/
inductive Form where
  /-- The terms stand as they were written. -/
  | written
  /-- The terms were collected and sorted on the left side. -/
  | reduced
  deriving DecidableEq

/-- A polynomial equation. -/
structure Equation where
  /-- The terms left of the equals sign. -/
  left : List Term
  /-- The terms right of the equals sign. -/
  right : List Term
  /-- How the terms stand. -/
  form : Form
  deriving DecidableEq

namespace Equation

/-- The equation with the given sides, as it is written. -/
def ofSides (left right : List Term) : Equation :=
  ⟨left, right, .written⟩

/-- Has the equation been reduced? -/
def isReduced (equation : Equation) : Bool :=
  equation.form == .reduced

/-- The higher of two powers. -/
def higher (power other : UInt32) : UInt32 :=
  if power < other then other else power

/-- The highest power among some terms, and zero when there are none. -/
def highestPower (terms : List Term) : UInt32 :=
  terms.foldr (fun term power => higher term.power power) 0

/-- The highest degree that can be solved. -/
def solvableDegree : UInt32 := 2

/-- The highest power on either side, as the equation stands. -/
def degree (equation : Equation) : UInt32 :=
  highestPower (equation.left ++ equation.right)

/-- Do two sides have the same terms, one by one? -/
def sameSide : List Term → List Term → Bool
  | [], [] => true
  | term :: terms, other :: others => term.sameTerm other && sameSide terms others
  | _, _ => false

/-- Are two equations the same, side by side and in form? -/
def sameEquation (equation other : Equation) : Bool :=
  sameSide equation.left other.left && sameSide equation.right other.right &&
    equation.form == other.form

end Equation

end Quadratics
