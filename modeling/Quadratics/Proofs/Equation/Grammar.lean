import Quadratics.Equation.Scanner

/-!
# The grammar of a side

A side of an equation is a row of signed terms, the first of which may do without
its sign:

    side   ::= blanks [sign blanks] body (blanks sign blanks body)* blanks
    body   ::= number [blanks '*' blanks power] | power
    power  ::= variable [blanks '^' blanks digits]
    number ::= digits ['.' digits]

The relations below say what a text spells by these rules.  They know nothing of
magnitudes: a text may spell a number that no binary64 number comes near, or an
exponent of any length.  `Phrase.Fits` singles out what can be represented, and
`Phrase.term` is the meaning of a phrase.

No spelled text has an equals sign in it (`SpellsSide.no_equals`), so an equation
falls apart into its two sides in one way only.
-/

namespace Quadratics.Equation

set_option autoImplicit false

open Text (isBlank skipBlanks)

/-! ## What is derived -/

/-- A term without its sign, as the grammar derives it. -/
inductive Spelling where
  | number (numeral : Numeral)
  | multiple (numeral : Numeral) (exponent : Option (List Char))
  | power (exponent : Option (List Char))

/-- A signed term, as the grammar derives it. -/
structure Phrase where
  negative : Bool
  spelling : Spelling

/-- The exponent that some digits write, one where there are none. -/
def exponentValue : Option (List Char) → Nat
  | none => 1
  | some digits => digitsValue digits

namespace Spelling

/-- The number in front, if there is one. -/
def numeral? : Spelling → Option Numeral
  | .number numeral => some numeral
  | .multiple numeral _ => some numeral
  | .power _ => none

/-- The power of the unknown: none for a bare number. -/
def exponent : Spelling → Nat
  | .number _ => 0
  | .multiple _ exponent => exponentValue exponent
  | .power exponent => exponentValue exponent

/-- The coefficient without its sign: one where no number is written. -/
def magnitude (spelling : Spelling) : Binary64 :=
  match spelling.numeral? with
  | some numeral => numeral.value
  | none => 1

end Spelling

namespace Phrase

/-- The number of a phrase is in the range of binary64, and its exponent fits a
word of 32 bits. -/
def Fits (phrase : Phrase) : Prop :=
  phrase.spelling.magnitude.isFinite = true ∧ phrase.spelling.exponent < UInt32.size

/-- The term that a phrase means. -/
def term (phrase : Phrase) : Term :=
  ⟨if phrase.negative then -phrase.spelling.magnitude else phrase.spelling.magnitude,
    UInt32.ofNat phrase.spelling.exponent⟩

end Phrase

/-! ## The rules -/

/-- A text of blanks, or the empty text. -/
def Blanks (text : List Char) : Prop :=
  ∀ character ∈ text, isBlank character = true

/-- A text of one or more decimal digits. -/
def Digits (text : List Char) : Prop :=
  text ≠ [] ∧ ∀ character ∈ text, character.isDigit = true

inductive SpellsNumber : List Char → Numeral → Prop where
  | whole {digits : List Char} (isWhole : Digits digits) : SpellsNumber digits ⟨digits, []⟩
  | pointed {whole fraction : List Char} (isWhole : Digits whole) (isFraction : Digits fraction) :
      SpellsNumber (whole ++ '.' :: fraction) ⟨whole, fraction⟩

inductive SpellsPower : List Char → Option (List Char) → Prop where
  | bare {unknown : Char} (isUnknown : isVariable unknown = true) : SpellsPower [unknown] none
  | raised {unknown : Char} {before after digits : List Char}
      (isUnknown : isVariable unknown = true) (blanksBefore : Blanks before)
      (blanksAfter : Blanks after) (isExponent : Digits digits) :
      SpellsPower (unknown :: (before ++ '^' :: (after ++ digits))) (some digits)

inductive SpellsBody : List Char → Spelling → Prop where
  | number {text : List Char} {numeral : Numeral} (isNumber : SpellsNumber text numeral) :
      SpellsBody text (.number numeral)
  | multiple {text before after power : List Char} {numeral : Numeral}
      {exponent : Option (List Char)} (isNumber : SpellsNumber text numeral)
      (blanksBefore : Blanks before) (blanksAfter : Blanks after)
      (isPower : SpellsPower power exponent) :
      SpellsBody (text ++ (before ++ '*' :: (after ++ power))) (.multiple numeral exponent)
  | power {text : List Char} {exponent : Option (List Char)} (isPower : SpellsPower text exponent) :
      SpellsBody text (.power exponent)

/-- A sign and the blanks behind it. -/
inductive SpellsSign : List Char → Bool → Prop where
  | plus {after : List Char} (blanksAfter : Blanks after) : SpellsSign ('+' :: after) false
  | minus {after : List Char} (blanksAfter : Blanks after) : SpellsSign ('-' :: after) true

/-- The terms behind the first one, and the blanks at the end of the side. -/
inductive SpellsLater : List Char → List Phrase → Prop where
  | done {text : List Char} (isBlank : Blanks text) : SpellsLater text []
  | more {before sign body later : List Char} {negative : Bool} {spelling : Spelling}
      {phrases : List Phrase} (blanksBefore : Blanks before) (isSign : SpellsSign sign negative)
      (isBody : SpellsBody body spelling) (isLater : SpellsLater later phrases) :
      SpellsLater (before ++ (sign ++ (body ++ later))) (⟨negative, spelling⟩ :: phrases)

inductive SpellsSide : List Char → List Phrase → Prop where
  | signed {before sign body later : List Char} {negative : Bool} {spelling : Spelling}
      {phrases : List Phrase} (blanksBefore : Blanks before) (isSign : SpellsSign sign negative)
      (isBody : SpellsBody body spelling) (isLater : SpellsLater later phrases) :
      SpellsSide (before ++ (sign ++ (body ++ later))) (⟨negative, spelling⟩ :: phrases)
  | unsigned {before body later : List Char} {spelling : Spelling} {phrases : List Phrase}
      (blanksBefore : Blanks before) (isBody : SpellsBody body spelling)
      (isLater : SpellsLater later phrases) :
      SpellsSide (before ++ (body ++ later)) (⟨false, spelling⟩ :: phrases)

/-! ## Texts of blanks and of digits -/

theorem Blanks.nil : Blanks [] :=
  fun _ member => absurd member List.not_mem_nil

/-- A space is a blank. -/
theorem Blanks.space : Blanks [' '] := by
  intro character member
  rw [List.mem_singleton.mp member]
  decide

theorem Blanks.append {first second : List Char} (isFirst : Blanks first)
    (isSecond : Blanks second) : Blanks (first ++ second) := by
  intro character member
  rcases List.mem_append.mp member with member | member
  · exact isFirst character member
  · exact isSecond character member

theorem Digits.singleton {character : Char} (digit : character.isDigit = true) :
    Digits [character] := by
  refine ⟨List.cons_ne_nil _ _, fun other member => ?_⟩
  rw [List.mem_singleton.mp member]
  exact digit

/-- Blanks in front of the later terms belong to them. -/
theorem SpellsLater.blanks_append {gap text : List Char} {phrases : List Phrase}
    (isGap : Blanks gap) (isLater : SpellsLater text phrases) :
    SpellsLater (gap ++ text) phrases := by
  cases isLater with
  | done isBlank => exact .done (isGap.append isBlank)
  | more blanksBefore isSign isBody isLater =>
    rw [← List.append_assoc]
    exact .more (isGap.append blanksBefore) isSign isBody isLater

theorem SpellsSide.ne_nil {text : List Char} {phrases : List Phrase}
    (isSide : SpellsSide text phrases) : phrases ≠ [] := by
  cases isSide <;> exact List.cons_ne_nil _ _

/-! ## Characters of a spelled text -/

theorem isBlank_of_isDigit {character : Char} (digit : character.isDigit = true) :
    isBlank character = false := by
  have digits : ∀ code < 58, 48 ≤ code →
      ((Text.blanks.takeWhile fun border => decide (border ≤ code)).length % 2 == 1) = false := by
    decide
  simp only [Char.isDigit, Bool.and_eq_true, decide_eq_true_eq, ge_iff_le,
    UInt32.le_iff_toNat_le] at digit
  exact digits character.toNat (Nat.lt_succ_of_le digit.2) digit.1

theorem Blanks.no_equals {text : List Char} (isBlanks : Blanks text) : '=' ∉ text :=
  fun member => absurd (isBlanks _ member) (by decide)

theorem Digits.no_equals {text : List Char} (isDigits : Digits text) : '=' ∉ text :=
  fun member => absurd (isDigits.2 _ member) (by decide)

theorem SpellsNumber.no_equals {text : List Char} {numeral : Numeral}
    (isNumber : SpellsNumber text numeral) : '=' ∉ text := by
  cases isNumber with
  | whole isWhole => exact isWhole.no_equals
  | pointed isWhole isFraction => simp [isWhole.no_equals, isFraction.no_equals]

theorem SpellsPower.no_equals {text : List Char} {exponent : Option (List Char)}
    (isPower : SpellsPower text exponent) : '=' ∉ text := by
  have different : ∀ {unknown : Char}, isVariable unknown = true → '=' ≠ unknown := by
    rintro _ isUnknown rfl
    exact absurd isUnknown (by decide)
  cases isPower with
  | bare isUnknown => simpa using different isUnknown
  | raised isUnknown blanksBefore blanksAfter isExponent =>
    simp [different isUnknown, blanksBefore.no_equals, blanksAfter.no_equals, isExponent.no_equals]

theorem SpellsBody.no_equals {text : List Char} {spelling : Spelling}
    (isBody : SpellsBody text spelling) : '=' ∉ text := by
  cases isBody with
  | number isNumber => exact isNumber.no_equals
  | multiple isNumber blanksBefore blanksAfter isPower =>
    simp [isNumber.no_equals, blanksBefore.no_equals, blanksAfter.no_equals, isPower.no_equals]
  | power isPower => exact isPower.no_equals

theorem SpellsSign.no_equals {text : List Char} {negative : Bool}
    (isSign : SpellsSign text negative) : '=' ∉ text := by
  cases isSign with
  | plus blanksAfter => simp [blanksAfter.no_equals]
  | minus blanksAfter => simp [blanksAfter.no_equals]

theorem SpellsLater.no_equals {text : List Char} {phrases : List Phrase}
    (isLater : SpellsLater text phrases) : '=' ∉ text := by
  induction isLater with
  | done isBlank => exact isBlank.no_equals
  | more blanksBefore isSign isBody _ ih =>
    simp [blanksBefore.no_equals, isSign.no_equals, isBody.no_equals, ih]

theorem SpellsSide.no_equals {text : List Char} {phrases : List Phrase}
    (isSide : SpellsSide text phrases) : '=' ∉ text := by
  cases isSide with
  | signed blanksBefore isSign isBody isLater =>
    simp [blanksBefore.no_equals, isSign.no_equals, isBody.no_equals, isLater.no_equals]
  | unsigned blanksBefore isBody isLater =>
    simp [blanksBefore.no_equals, isBody.no_equals, isLater.no_equals]

end Quadratics.Equation
