import Quadratics.Term

/-!
# Tokens

A token is one term as it is spelled on a side of an equation: a sign, a body,
and the slice of the side that it takes up.  A body is a number, a number times
the variable, or the variable alone, and the variable may have an exponent.  The
meaning of a token is a term (`Token.term`).
-/

namespace Quadratics.Equation

set_option autoImplicit false

/-- A number as it is spelled: the digits before the point and those after it. -/
structure Numeral where
  /-- The digits before the point. -/
  whole : List Char
  /-- The digits after the point. -/
  fraction : List Char
  deriving DecidableEq

/-- The natural number that some decimal digits write. -/
def digitsValue (digits : List Char) : Nat :=
  Nat.ofDigitChars 10 digits 0

/-- The binary64 number nearest to a numeral. -/
def Numeral.value (numeral : Numeral) : Binary64 :=
  Decimal.nearest
    ⟨false, digitsValue (numeral.whole ++ numeral.fraction), -(numeral.fraction.length : Int)⟩

/-- A term without its sign, as it is spelled. -/
inductive Body where
  /-- A bare number. -/
  | number (numeral : Numeral)
  /-- A number times the variable, with an exponent or without. -/
  | multiple (numeral : Numeral) (power : Option UInt32)
  /-- The variable, with an exponent or without. -/
  | variable (power : Option UInt32)
  deriving DecidableEq

/-- The number that a body has in front, one if it has none. -/
def Body.magnitude : Body → Binary64
  | .number numeral => numeral.value
  | .multiple numeral _ => numeral.value
  | .variable _ => 1

/-- The power of a body: none for a number, and one for a variable alone. -/
def Body.power : Body → UInt32
  | .number _ => 0
  | .multiple _ power => power.getD 1
  | .variable power => power.getD 1

/-- A term as it is spelled. -/
structure Token where
  /-- Is a minus sign in front? -/
  negative : Bool
  /-- The rest of the term. -/
  body : Body
  /-- The slice that the term takes up. -/
  text : List Char
  deriving DecidableEq

/-- The term that a token means. -/
def Token.term (token : Token) : Term :=
  let magnitude := token.body.magnitude
  ⟨if token.negative then -magnitude else magnitude, token.body.power⟩

/-- The ways to spell a body. -/
inductive Shape where
  /-- A number, the variable and an exponent. -/
  | multiplePower
  /-- A number and the variable. -/
  | multiple
  /-- The variable and an exponent. -/
  | variablePower
  /-- A number. -/
  | number
  /-- The variable. -/
  | variable
  deriving DecidableEq

/-- How a body is spelled. -/
def Body.shape : Body → Shape
  | .number _ => .number
  | .multiple _ (some _) => .multiplePower
  | .multiple _ none => .multiple
  | .variable (some _) => .variablePower
  | .variable none => .variable

end Quadratics.Equation
