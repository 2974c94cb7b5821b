import Quadratics.Equation.Basic
import Quadratics.Text.Quoted

/-!
# Why a text is refused

A text that is no equation for this library is refused for one reason, and the
part of the text that shows it is cited, without the blanks around it.  A flaw in
the spelling of a side has a place, given as the number of bytes in front of it
in that side; the other reasons concern a side or the equation as a whole, that a
side ends too early among them.
-/

namespace Quadratics.Equation

set_option autoImplicit false

/-- What can be wrong at a place of a side. -/
inductive Flaw where
  /-- A character that can begin or continue nothing. -/
  | stray (character : Char)
  /-- A term follows another without a sign between them. -/
  | unseparated
  /-- Only the variable can follow a multiplication sign. -/
  | variableMissing
  /-- Only digits can follow a power sign. -/
  | exponentMissing
  /-- An exponent has a point and digits after it. -/
  | exponentFractional
  /-- An exponent does not fit a 32 bit word. -/
  | exponentHuge
  /-- A number rounds to an infinity. -/
  | numberHuge
  deriving DecidableEq

/-- Why a text is refused. -/
inductive Reason where
  /-- The text does not have exactly one equals sign. -/
  | equalsSigns (found : Nat)
  /-- A side holds nothing but blanks. -/
  | blankSide
  /-- A side ends in the middle of a term. -/
  | unfinished
  /-- The spelling of a side is flawed behind so many bytes. -/
  | flawed (flaw : Flaw) (index : Nat)
  /-- The terms of a power add up to no finite number. -/
  | overflowing (power : UInt32)
  /-- The reduced form has too high a degree. -/
  | unsolvable (degree : UInt32)
  deriving DecidableEq

/-- A reason, and the text that shows it. -/
structure Refusal where
  /-- The text, without the blanks around it. -/
  source : String
  /-- The reason. -/
  reason : Reason
  deriving DecidableEq

/-- What is said of a flaw behind so many bytes. -/
def Flaw.message (flaw : Flaw) (index : Nat) : String :=
  let place := toString index
  match flaw with
  | .stray character =>
      "Unexpected character " ++ Text.quotedCharacter character ++ " at index " ++ place
  | .unseparated => "Terms must be separated by \"+\" or \"-\" (index " ++ place ++ ")"
  | .variableMissing => "Expected the variable \"x\" at index " ++ place
  | .exponentMissing => "Expected an exponent at index " ++ place
  | .exponentFractional => "Fractional exponents aren't supported (index " ++ place ++ ")"
  | .exponentHuge => "The exponent at index " ++ place ++ " is too large"
  | .numberHuge => "The number at index " ++ place ++ " is too large"

/-- What is said of a reason. -/
def Reason.message : Reason → String
  | .equalsSigns found => "Expected exactly one equals sign but found " ++ toString found
  | .blankSide => "Each side of the equation needs at least one term"
  | .unfinished => "Unexpected end of input"
  | .flawed flaw index => flaw.message index
  | .overflowing power =>
      "The x^" ++ toString power.toNat ++ " terms add up to more than a float can hold"
  | .unsolvable degree =>
      "Polynomial degree " ++ toString degree.toNat ++ " is too high, the maximum is " ++
        toString solvableDegree.toNat

/-- What is said of a refused text. -/
def Refusal.message (refusal : Refusal) : String :=
  "[[ " ++ refusal.source ++ " ]] -> " ++ refusal.reason.message

end Quadratics.Equation
