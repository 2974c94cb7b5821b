import Quadratics.Equation.Reduction
import Quadratics.Equation.Scanner

/-!
# Reading an equation

A text is an equation when it has one equals sign and a term at least on either
side of it, and when the equation can be worked with: its reduced form must have
finite coefficients and a degree that can be solved.  The degree is that of the
reduced form, so higher powers may occur as long as they cancel.  The equation
that is returned is the one that was written, not its reduced form.

The first thing wrong decides the refusal: the equals signs, the left side, the
right side, the coefficients from the highest power down, and the degree.
-/

namespace Quadratics.Equation

set_option autoImplicit false

/-- The number of bytes that a text takes up. -/
def byteLength (text : List Char) : Nat :=
  text.foldr (fun character length => character.utf8Size + length) 0

/-- A refusal that cites a text without the blanks around it. -/
def Refusal.citing (text : List Char) (reason : Reason) : Refusal :=
  ⟨String.ofList (Text.trim text), reason⟩

/-- The reason that a fault in a side gives, with the number of bytes in front of a flaw. -/
def Fault.reason (side : List Char) : Fault → Reason
  | .unfinished => .unfinished
  | .flawed flaw rest => .flawed flaw (byteLength side - byteLength rest)

/-- The terms of a side. -/
def readSide (side : List Char) : Except Refusal (List Term) :=
  if Text.skipBlanks side = [] then .error (.citing side .blankSide)
  else
    let scanned := scan true side
    match scanned.fault with
    | some fault => .error (.citing side (fault.reason side))
    | none => .ok (scanned.tokens.map Token.term)

/-- The text before the equals sign. -/
def leftSide (text : List Char) : List Char :=
  text.takeWhile fun character => character != '='

/-- The text after the equals sign. -/
def rightSide (text : List Char) : List Char :=
  (text.dropWhile fun character => character != '=').drop 1

/-- Why an equation cannot be worked with, if it cannot. -/
def objection (equation : Equation) : Option Reason :=
  let reduced := equation.reduce
  match reduced.left.find? fun term => !term.value.isFinite with
  | some term => some (.overflowing term.power)
  | none => if solvableDegree < reduced.degree then some (.unsolvable reduced.degree) else none

/-- The two sides of a text, read. -/
def readSides (text : List Char) : Except Refusal Equation :=
  match readSide (leftSide text) with
  | .error refusal => .error refusal
  | .ok left => (readSide (rightSide text)).map fun right => ofSides left right

/-- The equation that a text writes, or why it is refused. -/
def readCharacters (text : List Char) : Except Refusal Equation :=
  let found := text.count '='
  if found ≠ 1 then .error (.citing text (.equalsSigns found))
  else
    match readSides text with
    | .error refusal => .error refusal
    | .ok equation =>
        match equation.objection with
        | some reason => .error (.citing text reason)
        | none => .ok equation

/-- The equation that a text writes, or why it is refused. -/
def read (source : String) : Except Refusal Equation :=
  readCharacters source.toList

end Quadratics.Equation
