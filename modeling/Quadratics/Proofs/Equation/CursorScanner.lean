import Quadratics.Proofs.Equation.Cursor

/-!
# Reading by byte positions

The reader of an equation as a program that keeps its place in bytes: it looks one
or two characters ahead, moves on, and cuts the sides, the numbers and the tokens it
finds out of the text by their places.  What it cuts out it reads again, and relies
on being able to; the exponent of a token is kept apart from its form, and a token
whose form has an exponent relies on having one.  Wherever a promise could be broken
the program halts at a breach.
-/

namespace Quadratics.Equation.Cursor

set_option autoImplicit false

open Text (isBlank skipBlanks)

/-! ## The scanner -/

/-- The refusal of a side with a flaw at a cursor. -/
def refuse {α : Type} (flaw : Flaw) (cursor : Nat) : Except Halt α :=
  throw (.refused (.flawed flaw cursor))

/-- The refusal of a side that cannot go on as it does. -/
def unexpected {α : Type} (side : List Char) (cursor : Nat) : Except Halt α := do
  match ← peek side cursor with
  | some character => refuse (.stray character) cursor
  | none => throw (.refused .unfinished)

/-- The cursor behind the blanks. -/
def skip (side : List Char) (cursor : Nat) : Except Halt Nat :=
  skipWhile isBlank side cursor

/-- The cursor behind the character it stands at and the blanks after it. -/
def skipNext (side : List Char) (cursor : Nat) : Except Halt Nat := do
  skip side (← advance side cursor)

/-- An optional sign, which every term but the first must have. -/
def sign (side : List Char) (seenTerm : Bool) (cursor : Nat) : Except Halt (Bool × Nat) := do
  let next ← peek side cursor
  if next = some '+' then return (false, ← skipNext side cursor)
  else if next = some '-' then return (true, ← skipNext side cursor)
  else if seenTerm then refuse .unseparated cursor
  else return (false, cursor)

/-- The value of a plain decimal: digits, and perhaps a point and digits after it. -/
def numeralValue? (text : List Char) : Option Binary64 :=
  let whole := text.takeWhile Char.isDigit
  match text.dropWhile Char.isDigit with
  | [] => if whole = [] then none else some (Numeral.value ⟨whole, []⟩)
  | point :: fraction =>
      if point = '.' ∧ whole ≠ [] ∧ fraction ≠ [] ∧ fraction.all Char.isDigit then
        some (Numeral.value ⟨whole, fraction⟩)
      else none

/-- The cursor behind the point and the digits of a fraction, if there is a point. -/
def fractionEnd (side : List Char) (cursor : Nat) : Except Halt Nat := do
  let next ← peek side cursor
  if next = some '.' then
    let second ← peekSecond side cursor
    let behind ← advance side cursor
    if second.any Char.isDigit then return (← takeWhile Char.isDigit side behind).2
    else unexpected side behind
  else return cursor

/-- The slice of a number, which is read to see that it is not too large. -/
def number (side : List Char) (cursor : Nat) : Except Halt (List Char × Nat) := do
  let (_, point) ← takeWhile Char.isDigit side cursor
  let stop ← fractionEnd side point
  let text ← slice side cursor stop
  match numeralValue? text with
  | none => throw (.breach .unreadableNumeral)
  | some value => if value.isFinite then return (text, stop) else refuse .numberHuge cursor

/-- The variable. -/
def unknown (side : List Char) (cursor : Nat) : Except Halt Nat := do
  let next ← peek side cursor
  if next.any isVariable then advance side cursor else refuse .variableMissing cursor

/-- Does the text at a cursor go on with a point and a digit? -/
def fractionFollows (side : List Char) (cursor : Nat) : Except Halt Bool := do
  let next ← peek side cursor
  if next = some '.' then return (← peekSecond side cursor).any Char.isDigit else return false

/-- The digits of an exponent. -/
def power (side : List Char) (cursor : Nat) : Except Halt (UInt32 × Nat) := do
  match ← takeWhile Char.isDigit side cursor with
  | (none, _) => refuse .exponentMissing cursor
  | (some digits, stop) =>
      if ← fractionFollows side stop then refuse .exponentFractional cursor
      else if exponentLimit ≤ digitsValue digits then refuse .exponentHuge cursor
      else return (UInt32.ofNat (digitsValue digits), stop)

/-- An optional exponent. -/
def exponent (side : List Char) (cursor : Nat) : Except Halt (Option UInt32 × Nat) := do
  let sign ← skip side cursor
  let next ← peek side sign
  if next = some '^' then
    let (power, stop) ← power side (← skipNext side sign)
    return (some power, stop)
  else return (none, sign)

/-- The parts of a token: its form, the slice of its number, and its exponent. -/
structure Parts where
  shape : Shape
  coefficient : Option (List Char)
  power : Option UInt32

/-- What follows a number. -/
def multiple (side : List Char) (coefficient : List Char) (cursor : Nat) :
    Except Halt (Parts × Nat) := do
  let sign ← skip side cursor
  let next ← peek side sign
  if next = some '*' then
    match ← exponent side (← unknown side (← skipNext side sign)) with
    | (some power, stop) => return (⟨.multiplePower, some coefficient, some power⟩, stop)
    | (none, stop) => return (⟨.multiple, some coefficient, none⟩, stop)
  else return (⟨.number, some coefficient, none⟩, sign)

/-- A term after its sign. -/
def body (side : List Char) (cursor : Nat) : Except Halt (Parts × Nat) := do
  let next ← peek side cursor
  if next.any Char.isDigit then
    let (coefficient, stop) ← number side cursor
    multiple side coefficient stop
  else if next.any isVariable then
    match ← exponent side (← advance side cursor) with
    | (some power, stop) => return (⟨.variablePower, none, some power⟩, stop)
    | (none, stop) => return (⟨.variable, none, none⟩, stop)
  else unexpected side cursor

/-- A token as the scanner cuts it out: where it stands, its sign and its parts. -/
structure Token where
  start : Nat
  stop : Nat
  negative : Bool
  parts : Parts

/-- A token, and the cursor behind it. -/
def token (side : List Char) (seenTerm : Bool) (cursor : Nat) : Except Halt (Token × Nat) := do
  let (negative, start) ← sign side seenTerm cursor
  let (parts, stop) ← body side start
  return (⟨cursor, stop, negative, parts⟩, stop)

/-- The coefficient of a token without its sign, read from its slice. -/
def Parts.magnitude (parts : Parts) : Except Halt Binary64 :=
  match parts.coefficient with
  | none => .ok 1
  | some text =>
      match numeralValue? text with
      | some value => .ok value
      | none => .error (.breach .unreadableNumeral)

/-- The exponent of a token, by its form. -/
def Parts.exponent (parts : Parts) : Except Halt UInt32 :=
  match parts.shape, parts.power with
  | .number, _ => .ok 0
  | .variable, _ => .ok 1
  | .multiple, _ => .ok 1
  | .variablePower, some power => .ok power
  | .multiplePower, some power => .ok power
  | .variablePower, none => .error (.breach .missingExponent)
  | .multiplePower, none => .error (.breach .missingExponent)

/-- The term of a token. -/
def Token.term (token : Token) : Except Halt Term := do
  let magnitude ← token.parts.magnitude
  let power ← token.parts.exponent
  return ⟨if token.negative then -magnitude else magnitude, power⟩

/-- The terms of a side from a cursor on.  The slice of each token is cut out for
the trace. -/
def terms (side : List Char) (seenTerm : Bool) (cursor : Nat) : Except Halt (List Term) := do
  let start ← skip side cursor
  match ← peek side start with
  | none => return []
  | some _ =>
      let (found, stop) ← token side seenTerm start
      let _ ← slice side found.start found.stop
      let term ← found.term
      if cursor < stop ∧ stop ≤ byteLength side then
        return term :: (← terms side true stop)
      else throw (.breach .stuck)
termination_by byteLength side - cursor

/-! ## The reader -/

/-- The terms of a side, or why it is refused. -/
def readSide (side : List Char) : Except Halt (Except Refusal (List Term)) :=
  if Text.trim side = [] then .ok (.error (.citing side .blankSide))
  else
    match terms side false 0 with
    | .ok terms => .ok (.ok terms)
    | .error (.refused reason) => .ok (.error (.citing side reason))
    | .error (.breach breach) => .error (.breach breach)

/-- The place of the first equals sign. -/
def findEquals : List Char → Option Nat
  | [] => none
  | character :: text =>
      if character = '=' then some 0
      else (findEquals text).map fun index => character.utf8Size + index

/-- Why an equation with the given reduced form cannot be worked with, if it cannot. -/
def objection (reduced : Equation) : Option Reason :=
  match reduced.left.find? fun term => !term.value.isFinite with
  | some term => some (.overflowing term.power)
  | none => if solvableDegree < reduced.degree then some (.unsolvable reduced.degree) else none

/-- An equation, or why it is refused for what its terms amount to. -/
def accept (source : List Char) (equation : Equation) :
    Except Halt (Except Refusal Equation) :=
  match Grouping.run equation with
  | .error breach => .error (.breach (.grouping breach))
  | .ok reduced =>
      match objection reduced with
      | some reason => .ok (.error (.citing source reason))
      | none => .ok (.ok equation)

/-- The equation that a text writes, or why it is refused. -/
def read (source : List Char) : Except Halt (Except Refusal Equation) := do
  let found := source.count '='
  if found ≠ 1 then return .error (.citing source (.equalsSigns found))
  match findEquals source with
  | none => throw (.breach .missingEquals)
  | some index =>
      let leftSide ← slice source 0 index
      let rightSide ← textFrom (index + 1) source
      match ← readSide leftSide with
      | .error refusal => return .error refusal
      | .ok left =>
          match ← readSide rightSide with
          | .error refusal => return .error refusal
          | .ok right => accept source (ofSides left right)

end Quadratics.Equation.Cursor
