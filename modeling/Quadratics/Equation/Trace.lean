import Quadratics.Equation.Printer
import Quadratics.Equation.Reader

/-!
# The trace of a reading

Reading an equation can be followed step by step: each token as it is scanned,
the left side first, then the equation as it was read, and then its reduced form.
A trace ends where the reading fails.
-/

namespace Quadratics.Equation

set_option autoImplicit false

/-- What can be noted during a reading. -/
inductive Event where
  /-- A token was scanned. -/
  | scanned (token : Token)
  /-- Both sides were read. -/
  | wasRead (source : List Char) (equation : Equation)
  /-- The reduced form was found. -/
  | wasReduced (equation : Equation)
  deriving DecidableEq

/-- What a shape is called in a trace. -/
def Shape.name : Shape → String
  | .multiplePower => "CoefficientVariablePower"
  | .multiple => "CoefficientVariable"
  | .variablePower => "VariablePower"
  | .number => "Constant"
  | .variable => "Variable"

/-- The line of a trace that notes an event, with its level in front. -/
def Event.line : Event → String
  | .scanned token =>
      "TRACE Scanned " ++ Text.quotedText token.text ++ " as " ++ token.body.shape.name
  | .wasRead source equation =>
      "DEBUG Parsed \"" ++ String.ofList (Text.trim source) ++ "\" as " ++ equation.text
  | .wasReduced equation => "DEBUG Reduced form: " ++ equation.text

/-- The tokens noted while a side is scanned. -/
def sideEvents (side : List Char) : List Event :=
  (scan true side).tokens.map .scanned

/-- What is noted while a text is read. -/
def trace (source : String) : List Event :=
  let text := source.toList
  if text.count '=' ≠ 1 then []
  else
    sideEvents (leftSide text) ++
      match readSide (leftSide text) with
      | .error _ => []
      | .ok _ =>
          sideEvents (rightSide text) ++
            match readSides text with
            | .error _ => []
            | .ok equation => [.wasRead text equation, .wasReduced equation.reduce]

end Quadratics.Equation
