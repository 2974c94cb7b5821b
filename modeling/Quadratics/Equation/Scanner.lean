import Quadratics.Equation.Refusal
import Quadratics.Equation.Token
import Quadratics.Text.Blank

/-!
# Scanning a side of an equation

A side is scanned term by term.  Each function here reads something from the
front of a text and returns it with the rest of the text, or the fault it met: the
text ended too early, or there is a flaw, and then the fault has the text that
begins with it.  The texts that faults and results carry are ends of the side, so
the place of a flaw is the length of what is missing in front.

Blanks may stand around signs, around the multiplication sign and around the
power sign.  A token takes up the blanks behind its number or variable, because
they are skipped in looking for what may follow, but not those in front of its
sign.

`scan` returns the tokens read up to the first fault together with that fault.
-/

namespace Quadratics.Equation

set_option autoImplicit false

open Text (isBlank skipBlanks)

/-- Why a side is not scanned to its end. -/
inductive Fault where
  /-- The side ends in the middle of a term. -/
  | unfinished
  /-- A flaw, and the end of the side that begins with it. -/
  | flawed (flaw : Flaw) (rest : List Char)
  deriving DecidableEq

/-! ## Parts of a term -/

/-- The fault of a text that cannot go on as it does. -/
def unexpected (text : List Char) : Fault :=
  match text with
  | [] => .unfinished
  | character :: _ => .flawed (.stray character) text

/-- Does a text begin with a digit? -/
def startsWithDigit : List Char → Bool
  | character :: _ => character.isDigit
  | [] => false

/-- The digits after a point, of which there must be one; without a point there
are none. -/
def scanFraction (text : List Char) : Except Fault (List Char × List Char) :=
  match text with
  | '.' :: rest =>
      if startsWithDigit rest then .ok (rest.takeWhile Char.isDigit, rest.dropWhile Char.isDigit)
      else .error (unexpected rest)
  | _ => .ok ([], text)

/-- A number that binary64 can hold. -/
def scanNumeral (text : List Char) : Except Fault (Numeral × List Char) :=
  match scanFraction (text.dropWhile Char.isDigit) with
  | .error fault => .error fault
  | .ok (fraction, rest) =>
      let numeral : Numeral := ⟨text.takeWhile Char.isDigit, fraction⟩
      if numeral.value.isFinite then .ok (numeral, rest) else .error (.flawed .numberHuge text)

/-- Is a character the variable? -/
def isVariable (character : Char) : Bool :=
  character == 'x' || character == 'X'

/-- The variable. -/
def scanVariable (text : List Char) : Except Fault (List Char) :=
  match text with
  | character :: rest =>
      if isVariable character then .ok rest else .error (.flawed .variableMissing text)
  | [] => .error (.flawed .variableMissing text)

/-- Does a text go on with a point and a digit? -/
def startsWithFraction : List Char → Bool
  | '.' :: rest => startsWithDigit rest
  | _ => false

/-- Exponents stay below `2 ^ 32`. -/
def exponentLimit : Nat := 4294967296

/-- The digits of an exponent. -/
def scanPower (text : List Char) : Except Fault (UInt32 × List Char) :=
  let rest := text.dropWhile Char.isDigit
  let value := digitsValue (text.takeWhile Char.isDigit)
  if !startsWithDigit text then .error (.flawed .exponentMissing text)
  else if startsWithFraction rest then .error (.flawed .exponentFractional text)
  else if exponentLimit ≤ value then .error (.flawed .exponentHuge text)
  else .ok (UInt32.ofNat value, rest)

/-- The exponent after a variable, if there is a power sign. -/
def scanExponent (text : List Char) : Except Fault (Option UInt32 × List Char) :=
  match skipBlanks text with
  | '^' :: rest => (scanPower (skipBlanks rest)).map fun (power, rest) => (some power, rest)
  | rest => .ok (none, rest)

/-- What follows a number: the variable after a multiplication sign, or nothing. -/
def scanMultiple (numeral : Numeral) (text : List Char) : Except Fault (Body × List Char) :=
  match skipBlanks text with
  | '*' :: rest =>
      match scanVariable (skipBlanks rest) with
      | .error fault => .error fault
      | .ok rest => (scanExponent rest).map fun (power, rest) => (.multiple numeral power, rest)
  | rest => .ok (.number numeral, rest)

/-- A term after its sign. -/
def scanBody (text : List Char) : Except Fault (Body × List Char) :=
  match text with
  | [] => .error (unexpected text)
  | character :: rest =>
      if character.isDigit then
        match scanNumeral text with
        | .error fault => .error fault
        | .ok (numeral, rest) => scanMultiple numeral rest
      else if isVariable character then
        (scanExponent rest).map fun (power, rest) => (.variable power, rest)
      else .error (unexpected text)

/-- The sign of a term and the text after it.  The first term of a side may do
without. -/
def scanSign (isFirst : Bool) (text : List Char) : Except Fault (Bool × List Char) :=
  match text with
  | '+' :: rest => .ok (false, skipBlanks rest)
  | '-' :: rest => .ok (true, skipBlanks rest)
  | _ => if isFirst then .ok (false, text) else .error (.flawed .unseparated text)

/-- A term. -/
def scanTerm (isFirst : Bool) (text : List Char) : Except Fault (Token × List Char) :=
  match scanSign isFirst text with
  | .error fault => .error fault
  | .ok (negative, unsigned) =>
      (scanBody unsigned).map fun (body, rest) =>
        (⟨negative, body, text.take (text.length - rest.length)⟩, rest)

/-! ## Scanning goes forward -/

/-- What is left after some characters are dropped is no longer. -/
theorem length_dropWhile_le (keep : Char → Bool) (text : List Char) :
    (text.dropWhile keep).length ≤ text.length :=
  (List.dropWhile_sublist keep).length_le

theorem length_of_scanFraction {text fraction rest : List Char}
    (scanned : scanFraction text = .ok (fraction, rest)) : rest.length ≤ text.length := by
  unfold scanFraction at scanned
  split at scanned
  · split at scanned
    · cases scanned
      exact Nat.le_succ_of_le (length_dropWhile_le _ _)
    · cases scanned
  · cases scanned
    exact Nat.le_refl _

theorem length_of_scanNumeral {text rest : List Char} {numeral : Numeral}
    (digit : startsWithDigit text = true) (scanned : scanNumeral text = .ok (numeral, rest)) :
    rest.length < text.length := by
  unfold scanNumeral at scanned
  split at scanned
  · cases scanned
  · rename_i fraction rest' fractionScanned
    dsimp only at scanned
    split at scanned
    · cases scanned
      have shorter := length_of_scanFraction fractionScanned
      cases text with
      | nil => cases digit
      | cons character text =>
        have isDigit : character.isDigit = true := digit
        rw [List.dropWhile_cons_of_pos isDigit] at shorter
        exact Nat.lt_succ_of_le (Nat.le_trans shorter (length_dropWhile_le _ _))
    · cases scanned

theorem length_of_scanVariable {text rest : List Char} (scanned : scanVariable text = .ok rest) :
    rest.length < text.length := by
  unfold scanVariable at scanned
  split at scanned
  · split at scanned
    · cases scanned
      exact Nat.lt_succ_self _
    · cases scanned
  · cases scanned

theorem length_of_scanPower {text rest : List Char} {power : UInt32}
    (scanned : scanPower text = .ok (power, rest)) : rest.length ≤ text.length := by
  unfold scanPower at scanned
  dsimp only at scanned
  repeat' split at scanned
  all_goals cases scanned
  exact length_dropWhile_le _ _

theorem length_of_scanExponent {text rest : List Char} {power : Option UInt32}
    (scanned : scanExponent text = .ok (power, rest)) : rest.length ≤ text.length := by
  have skipped := Text.length_skipBlanks_le text
  unfold scanExponent at scanned
  split at scanned
  · rename_i after found
    rw [found] at skipped
    have skippedAfter := Text.length_skipBlanks_le after
    cases powerScanned : scanPower (skipBlanks after) with
    | error fault => rw [powerScanned] at scanned; cases scanned
    | ok result =>
      rw [powerScanned] at scanned
      cases scanned
      have shorter := length_of_scanPower powerScanned
      simp only [List.length_cons] at skipped
      omega
  · cases scanned
    exact skipped

theorem length_of_scanMultiple {text rest : List Char} {numeral : Numeral} {body : Body}
    (scanned : scanMultiple numeral text = .ok (body, rest)) : rest.length ≤ text.length := by
  have skipped := Text.length_skipBlanks_le text
  unfold scanMultiple at scanned
  split at scanned
  · rename_i after found
    rw [found] at skipped
    have skippedAfter := Text.length_skipBlanks_le after
    split at scanned
    · cases scanned
    · rename_i afterVariable variableScanned
      have shorter := length_of_scanVariable variableScanned
      cases exponentScanned : scanExponent afterVariable with
      | error fault => rw [exponentScanned] at scanned; cases scanned
      | ok result =>
        rw [exponentScanned] at scanned
        cases scanned
        have notLonger := length_of_scanExponent exponentScanned
        simp only [List.length_cons] at skipped
        omega
  · cases scanned
    exact skipped

theorem length_of_scanBody {text rest : List Char} {body : Body}
    (scanned : scanBody text = .ok (body, rest)) : rest.length < text.length := by
  unfold scanBody at scanned
  split at scanned
  · cases scanned
  · rename_i character after
    split at scanned
    · rename_i isDigit
      split at scanned
      · cases scanned
      · rename_i numeral afterNumeral numeralScanned
        have digit : startsWithDigit (character :: after) = true := isDigit
        have shorter := length_of_scanNumeral digit numeralScanned
        have notLonger := length_of_scanMultiple scanned
        omega
    · split at scanned
      · cases exponentScanned : scanExponent after with
        | error fault => rw [exponentScanned] at scanned; cases scanned
        | ok result =>
          rw [exponentScanned] at scanned
          cases scanned
          exact Nat.lt_succ_of_le (length_of_scanExponent exponentScanned)
      · cases scanned

theorem length_of_scanSign {isFirst negative : Bool} {text unsigned : List Char}
    (scanned : scanSign isFirst text = .ok (negative, unsigned)) :
    unsigned.length ≤ text.length := by
  unfold scanSign at scanned
  split at scanned
  · cases scanned
    exact Nat.le_succ_of_le (Text.length_skipBlanks_le _)
  · cases scanned
    exact Nat.le_succ_of_le (Text.length_skipBlanks_le _)
  · split at scanned
    · cases scanned
      exact Nat.le_refl _
    · cases scanned

/-- A term takes up at least one character. -/
theorem length_of_scanTerm {isFirst : Bool} {text rest : List Char} {token : Token}
    (scanned : scanTerm isFirst text = .ok (token, rest)) : rest.length < text.length := by
  unfold scanTerm at scanned
  split at scanned
  · cases scanned
  · rename_i negative unsigned signScanned
    have notLonger := length_of_scanSign signScanned
    cases bodyScanned : scanBody unsigned with
    | error fault => rw [bodyScanned] at scanned; cases scanned
    | ok result =>
      rw [bodyScanned] at scanned
      cases scanned
      exact Nat.lt_of_lt_of_le (length_of_scanBody bodyScanned) notLonger

/-! ## A whole side -/

/-- The tokens of a text up to its first fault, and that fault. -/
structure Scan where
  /-- The tokens in order. -/
  tokens : List Token
  /-- Where scanning had to stop, if it did. -/
  fault : Option Fault
  deriving DecidableEq

/-- Scan a text, whose first term is the first of its side or not. -/
def scan (isFirst : Bool) (text : List Char) : Scan :=
  if skipBlanks text = [] then ⟨[], none⟩
  else
    match scanned : scanTerm isFirst (skipBlanks text) with
    | .error fault => ⟨[], some fault⟩
    | .ok (token, rest) =>
        have : rest.length < text.length :=
          Nat.lt_of_lt_of_le (length_of_scanTerm scanned) (Text.length_skipBlanks_le text)
        let later := scan false rest
        ⟨token :: later.tokens, later.fault⟩
termination_by text.length

end Quadratics.Equation
