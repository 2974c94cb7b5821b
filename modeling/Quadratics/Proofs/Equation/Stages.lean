import Quadratics.Proofs.Equation.Scanning

/-!
# How far a text can be a side

A text is viable when more text can make a side of it, and complete when it is one already,
whatever its numbers amount to.  Both are read off the text by a machine that goes through
its characters one by one and always knows in which part of a term it is (`Stage`).

The machine keeps going just as long as the text is viable (`viable_iff`), and ends in a
stage where a term may end just when the text is complete (`complete_iff`).  In one
direction every rule of the grammar leads from stage to stage; in the other, what was read
of a term keeps the form that the stage stands for (`Begun`), character by character, until
the term is complete.
-/

namespace Quadratics.Equation

set_option autoImplicit false

open Text (isBlank)

/-! ## Viable texts -/

/-- A text is a side of an equation by the grammar. -/
def Complete (text : List Char) : Prop :=
  ∃ phrases, SpellsSide text phrases

/-- A text is the front of a side. -/
def Viable (text : List Char) : Prop :=
  ∃ more, Complete (text ++ more)

/-! ## Stages -/

/-- What a character is to the grammar. -/
inductive Kind where
  | blank
  | digit
  | point
  | star
  | caret
  | sign
  | unknown
  | other
  deriving DecidableEq

/-- The kind of a character. -/
def kindOf (character : Char) : Kind :=
  if isBlank character then .blank
  else if character.isDigit then .digit
  else if isVariable character then .unknown
  else if character = '+' ∨ character = '-' then .sign
  else if character = '.' then .point
  else if character = '*' then .star
  else if character = '^' then .caret
  else .other

/-- Where the machine is in a side. -/
inductive Stage where
  /-- Before the first term. -/
  | start
  /-- Behind a sign. -/
  | signed
  /-- In the digits before a point. -/
  | inWhole
  /-- Behind a point. -/
  | atPoint
  /-- In the digits behind a point. -/
  | inFraction
  /-- Behind a number and blanks. -/
  | afterNumber
  /-- Behind a multiplication sign. -/
  | afterStar
  /-- Behind the unknown. -/
  | afterUnknown
  /-- Behind a power sign. -/
  | afterCaret
  /-- In the digits of an exponent. -/
  | inExponent
  /-- Behind an exponent and blanks. -/
  | afterExponent
  deriving DecidableEq

namespace Stage

/-- The stage behind one more character, if there may be one of its kind. -/
def next : Stage → Kind → Option Stage
  | .start, .blank => some .start
  | .start, .sign => some .signed
  | .start, .digit => some .inWhole
  | .start, .unknown => some .afterUnknown
  | .signed, .blank => some .signed
  | .signed, .digit => some .inWhole
  | .signed, .unknown => some .afterUnknown
  | .inWhole, .digit => some .inWhole
  | .inWhole, .point => some .atPoint
  | .inWhole, .blank => some .afterNumber
  | .inWhole, .star => some .afterStar
  | .inWhole, .sign => some .signed
  | .atPoint, .digit => some .inFraction
  | .inFraction, .digit => some .inFraction
  | .inFraction, .blank => some .afterNumber
  | .inFraction, .star => some .afterStar
  | .inFraction, .sign => some .signed
  | .afterNumber, .blank => some .afterNumber
  | .afterNumber, .star => some .afterStar
  | .afterNumber, .sign => some .signed
  | .afterStar, .blank => some .afterStar
  | .afterStar, .unknown => some .afterUnknown
  | .afterUnknown, .blank => some .afterUnknown
  | .afterUnknown, .caret => some .afterCaret
  | .afterUnknown, .sign => some .signed
  | .afterCaret, .blank => some .afterCaret
  | .afterCaret, .digit => some .inExponent
  | .inExponent, .digit => some .inExponent
  | .inExponent, .blank => some .afterExponent
  | .inExponent, .sign => some .signed
  | .afterExponent, .blank => some .afterExponent
  | .afterExponent, .sign => some .signed
  | _, _ => none

/-- May a term end here? -/
def mayEnd : Stage → Bool
  | .inWhole | .inFraction | .afterNumber | .afterUnknown | .inExponent | .afterExponent => true
  | .start | .signed | .atPoint | .afterStar | .afterCaret => false

/-- The stage behind a text, if it keeps to the grammar. -/
def run (stage : Stage) : List Char → Option Stage
  | [] => some stage
  | character :: text => (stage.next (kindOf character)).bind fun later => later.run text

theorem run_cons {stage later : Stage} {character : Char} (text : List Char)
    (goesOn : stage.next (kindOf character) = some later) :
    stage.run (character :: text) = later.run text := by
  rw [run, goesOn, Option.bind_some]

theorem run_append (stage : Stage) (front back : List Char) :
    stage.run (front ++ back) = (stage.run front).bind fun later => later.run back := by
  induction front generalizing stage with
  | nil => rfl
  | cons character front ih =>
    simp only [List.cons_append, run]
    cases stage.next (kindOf character) with
    | none => rfl
    | some later => exact ih later

theorem run_append_of {stage later : Stage} {front : List Char} (back : List Char)
    (reached : stage.run front = some later) : stage.run (front ++ back) = later.run back := by
  rw [run_append, reached, Option.bind_some]

end Stage

/-! ## Kinds of characters -/

theorem kindOf_blank {character : Char} (blank : isBlank character = true) :
    kindOf character = .blank :=
  if_pos blank

theorem kindOf_digit {character : Char} (digit : character.isDigit = true) :
    kindOf character = .digit := by
  simp [kindOf, isBlank_of_isDigit digit, digit]

theorem kindOf_unknown {character : Char} (isUnknown : isVariable character = true) :
    kindOf character = .unknown := by
  rcases isVariable_cases isUnknown with rfl | rfl <;> decide

/-- A kind says what the character is. -/
def Kind.Covers (kind : Kind) (character : Char) : Prop :=
  match kind with
  | .blank => isBlank character = true
  | .digit => character.isDigit = true
  | .unknown => isVariable character = true
  | .sign => character = '+' ∨ character = '-'
  | .point => character = '.'
  | .star => character = '*'
  | .caret => character = '^'
  | .other => True

theorem covers_kindOf (character : Char) : (kindOf character).Covers character := by
  unfold kindOf
  repeat' split
  all_goals first | assumption | trivial

/-! ## From the grammar to the stages -/

namespace Stage

/-- What blanks keep true of a stage is true behind them. -/
theorem exists_run_blanks (Holds : Stage → Prop)
    (keeps : ∀ stage, Holds stage → ∃ later, next stage .blank = some later ∧ Holds later)
    {stage : Stage} (holds : Holds stage) {gap : List Char} (isGap : Blanks gap) :
    ∃ later, stage.run gap = some later ∧ Holds later := by
  induction gap generalizing stage with
  | nil => exact ⟨stage, rfl, holds⟩
  | cons character gap ih =>
    obtain ⟨later, goesOn, holdsLater⟩ := keeps stage holds
    rw [← kindOf_blank (isGap character List.mem_cons_self)] at goesOn
    obtain ⟨last, reached, holdsLast⟩ :=
      ih holdsLater fun other member => isGap other (List.mem_cons_of_mem _ member)
    exact ⟨last, (run_cons gap goesOn).trans reached, holdsLast⟩

theorem run_blanks {stage : Stage} (keeps : stage.next .blank = some stage) {gap : List Char}
    (isGap : Blanks gap) : stage.run gap = some stage := by
  obtain ⟨later, reached, rfl⟩ := exists_run_blanks (· = stage)
    (by rintro _ rfl; exact ⟨_, keeps, rfl⟩) rfl isGap
  exact reached

theorem run_digits {stage : Stage} (keeps : stage.next .digit = some stage) {digits : List Char}
    (all : ∀ character ∈ digits, character.isDigit = true) : stage.run digits = some stage := by
  induction digits with
  | nil => rfl
  | cons character digits ih =>
    rw [← kindOf_digit (all character List.mem_cons_self)] at keeps
    rw [run_cons digits keeps]
    exact ih fun other member => all other (List.mem_cons_of_mem _ member)

/-- The first digit leads into a row of digits, and the others go along it. -/
theorem run_of_digits {stage later : Stage} (begins : stage.next .digit = some later)
    (keeps : later.next .digit = some later) {digits : List Char} (isDigits : Digits digits) :
    stage.run digits = some later := by
  obtain ⟨nonempty, all⟩ := isDigits
  obtain ⟨first, others, rfl⟩ := List.exists_cons_of_ne_nil nonempty
  rw [← kindOf_digit (all first List.mem_cons_self)] at begins
  rw [run_cons others begins]
  exact run_digits keeps fun other member => all other (List.mem_cons_of_mem _ member)

theorem run_pointed {stage : Stage} (begins : stage.next .digit = some .inWhole)
    {whole fraction : List Char} (isWhole : Digits whole) (isFraction : Digits fraction) :
    stage.run (whole ++ '.' :: fraction) = some .inFraction := by
  rw [run_append_of _ (run_of_digits begins rfl isWhole),
    run_cons _ (by rfl : inWhole.next (kindOf '.') = some .atPoint)]
  exact run_of_digits rfl rfl isFraction

end Stage

theorem SpellsNumber.run {text : List Char} {numeral : Numeral} {stage : Stage}
    (begins : stage.next .digit = some .inWhole) (isNumber : SpellsNumber text numeral) :
    ∃ later, stage.run text = some later ∧ (later = .inWhole ∨ later = .inFraction) := by
  cases isNumber with
  | whole isWhole => exact ⟨_, Stage.run_of_digits begins rfl isWhole, .inl rfl⟩
  | pointed isWhole isFraction =>
    exact ⟨_, Stage.run_pointed begins isWhole isFraction, .inr rfl⟩

/-- A multiplication sign with blanks around it leads on from a number. -/
theorem run_star {stage : Stage} (behindNumber : stage = .inWhole ∨ stage = .inFraction)
    {before after : List Char} (blanksBefore : Blanks before) (blanksAfter : Blanks after) :
    stage.run (before ++ '*' :: after) = some .afterStar := by
  obtain ⟨later, reached, goesOn⟩ := Stage.exists_run_blanks
    (fun stage => stage.next .star = some .afterStar)
    (by intro stage star; cases stage <;> first | exact ⟨_, rfl, rfl⟩ | cases star)
    (by rcases behindNumber with rfl | rfl <;> rfl : stage.next .star = some .afterStar)
    blanksBefore
  rw [Stage.run_append_of _ reached, Stage.run_cons _ (by exact goesOn)]
  exact Stage.run_blanks rfl blanksAfter

theorem SpellsPower.run {text : List Char} {exponent : Option (List Char)} {stage : Stage}
    (begins : stage.next .unknown = some .afterUnknown) (isPower : SpellsPower text exponent) :
    ∃ later, stage.run text = some later ∧ later.mayEnd = true := by
  cases isPower with
  | bare isUnknown =>
    rw [← kindOf_unknown isUnknown] at begins
    exact ⟨.afterUnknown, Stage.run_cons [] begins, rfl⟩
  | raised isUnknown blanksBefore blanksAfter isExponent =>
    rw [← kindOf_unknown isUnknown] at begins
    refine ⟨.inExponent, ?_, rfl⟩
    rw [Stage.run_cons _ begins, Stage.run_append_of _ (Stage.run_blanks rfl blanksBefore),
      Stage.run_cons _ (by rfl : Stage.afterUnknown.next (kindOf '^') = some .afterCaret),
      Stage.run_append_of _ (Stage.run_blanks rfl blanksAfter)]
    exact Stage.run_of_digits rfl rfl isExponent

/-- **A body leads from a place where a term may begin to one where it may end.** -/
theorem SpellsBody.run {text : List Char} {spelling : Spelling} {stage : Stage}
    (begins : stage = .start ∨ stage = .signed) (isBody : SpellsBody text spelling) :
    ∃ later, stage.run text = some later ∧ later.mayEnd = true := by
  have digit : stage.next .digit = some .inWhole := by rcases begins with rfl | rfl <;> rfl
  have unknown : stage.next .unknown = some .afterUnknown := by
    rcases begins with rfl | rfl <;> rfl
  cases isBody with
  | number isNumber =>
    obtain ⟨later, reached, rfl | rfl⟩ := isNumber.run digit
    · exact ⟨_, reached, rfl⟩
    · exact ⟨_, reached, rfl⟩
  | multiple isNumber blanksBefore blanksAfter isPower =>
    obtain ⟨later, reached, behindNumber⟩ := isNumber.run digit
    have star := run_star behindNumber blanksBefore blanksAfter
    obtain ⟨last, reachedLast, mayEnd⟩ := isPower.run (by rfl : Stage.afterStar.next .unknown = _)
    refine ⟨last, ?_, mayEnd⟩
    rw [Stage.run_append_of _ reached, ← List.cons_append, ← List.append_assoc,
      Stage.run_append_of _ star, reachedLast]
  | power isPower => exact isPower.run unknown

theorem SpellsSign.run {sign : List Char} {negative : Bool} {stage : Stage}
    (begins : stage.next .sign = some .signed) (isSign : SpellsSign sign negative) :
    stage.run sign = some .signed := by
  cases isSign with
  | plus blanksAfter =>
    rw [Stage.run_cons _ (by exact begins)]
    exact Stage.run_blanks rfl blanksAfter
  | minus blanksAfter =>
    rw [Stage.run_cons _ (by exact begins)]
    exact Stage.run_blanks rfl blanksAfter

theorem Stage.exists_run_blanks_of_mayEnd {stage : Stage} (mayEnd : stage.mayEnd = true)
    {gap : List Char} (isGap : Blanks gap) :
    ∃ later, stage.run gap = some later ∧ later.mayEnd = true :=
  exists_run_blanks (fun stage => stage.mayEnd = true)
    (by intro stage ends; cases stage <;> first | exact ⟨_, rfl, rfl⟩ | cases ends) mayEnd isGap

theorem Stage.next_sign_of_mayEnd {stage : Stage} (mayEnd : stage.mayEnd = true) :
    stage.next .sign = some .signed := by
  cases stage <;> first | rfl | cases mayEnd

theorem SpellsLater.run {text : List Char} {phrases : List Phrase}
    (isLater : SpellsLater text phrases) {stage : Stage} (mayEnd : stage.mayEnd = true) :
    ∃ later, stage.run text = some later ∧ later.mayEnd = true := by
  induction isLater generalizing stage with
  | done isGap => exact Stage.exists_run_blanks_of_mayEnd mayEnd isGap
  | more blanksBefore isSign isBody _ ih =>
    obtain ⟨later, reached, endsLater⟩ := Stage.exists_run_blanks_of_mayEnd mayEnd blanksBefore
    have signed := isSign.run (Stage.next_sign_of_mayEnd endsLater)
    obtain ⟨behind, reachedBehind, endsBehind⟩ := isBody.run (.inr rfl)
    rw [Stage.run_append_of _ reached, Stage.run_append_of _ signed,
      Stage.run_append_of _ reachedBehind]
    exact ih endsBehind

/-- **A side leads to a stage where a term may end.** -/
theorem SpellsSide.run {text : List Char} {phrases : List Phrase}
    (isSide : SpellsSide text phrases) :
    ∃ later, Stage.start.run text = some later ∧ later.mayEnd = true := by
  cases isSide with
  | signed blanksBefore isSign isBody isLater =>
    obtain ⟨behind, reachedBehind, endsBehind⟩ := isBody.run (.inr rfl)
    rw [Stage.run_append_of _ (Stage.run_blanks rfl blanksBefore),
      Stage.run_append_of _ (isSign.run rfl), Stage.run_append_of _ reachedBehind]
    exact isLater.run endsBehind
  | unsigned blanksBefore isBody isLater =>
    obtain ⟨behind, reachedBehind, endsBehind⟩ := isBody.run (.inl rfl)
    rw [Stage.run_append_of _ (Stage.run_blanks rfl blanksBefore),
      Stage.run_append_of _ reachedBehind]
    exact isLater.run endsBehind

/-! ## From the stages to the grammar -/

theorem Blanks.snoc {gap : List Char} {character : Char} (isGap : Blanks gap)
    (blank : isBlank character = true) : Blanks (gap ++ [character]) := by
  refine isGap.append fun other member => ?_
  rw [List.mem_singleton.mp member]
  exact blank

theorem Digits.snoc {digits : List Char} {character : Char} (isDigits : Digits digits)
    (digit : character.isDigit = true) : Digits (digits ++ [character]) := by
  refine ⟨List.append_ne_nil_of_left_ne_nil isDigits.1 _, fun other member => ?_⟩
  rcases List.mem_append.mp member with member | member
  · exact isDigits.2 other member
  · exact (Digits.singleton digit).2 other member

theorem SpellsSign.snoc {sign : List Char} {negative : Bool} {character : Char}
    (isSign : SpellsSign sign negative) (blank : isBlank character = true) :
    SpellsSign (sign ++ [character]) negative := by
  cases isSign with
  | plus blanksAfter => exact .plus (blanksAfter.snoc blank)
  | minus blanksAfter => exact .minus (blanksAfter.snoc blank)

/-- What may stand in front of the unknown in a body. -/
inductive Factor : List Char → Prop where
  | none : Factor []
  | number {number before after : List Char} {numeral : Numeral}
      (isNumber : SpellsNumber number numeral) (blanksBefore : Blanks before)
      (blanksAfter : Blanks after) : Factor (number ++ (before ++ '*' :: after))

theorem Factor.body {factor power : List Char} {exponent : Option (List Char)}
    (isFactor : Factor factor) (isPower : SpellsPower power exponent) :
    ∃ spelling, SpellsBody (factor ++ power) spelling := by
  cases isFactor with
  | none => exact ⟨_, .power isPower⟩
  | number isNumber blanksBefore blanksAfter =>
    have isBody := SpellsBody.multiple isNumber blanksBefore blanksAfter isPower
    rw [← List.cons_append, ← List.append_assoc, ← List.append_assoc] at isBody
    rw [← List.append_assoc]
    exact ⟨_, isBody⟩

/-- What was read of a term, or in front of it, in each stage. -/
inductive Begun : Stage → List Char → Prop where
  | start {gap : List Char} (isGap : Blanks gap) : Begun .start gap
  | signed {sign : List Char} {negative : Bool} (isSign : SpellsSign sign negative) :
      Begun .signed sign
  | inWhole {whole : List Char} (isWhole : Digits whole) : Begun .inWhole whole
  | atPoint {whole : List Char} (isWhole : Digits whole) : Begun .atPoint (whole ++ ['.'])
  | inFraction {whole fraction : List Char} (isWhole : Digits whole)
      (isFraction : Digits fraction) : Begun .inFraction (whole ++ '.' :: fraction)
  | afterNumber {number gap : List Char} {numeral : Numeral}
      (isNumber : SpellsNumber number numeral) (isGap : Blanks gap) :
      Begun .afterNumber (number ++ gap)
  | afterStar {number before after : List Char} {numeral : Numeral}
      (isNumber : SpellsNumber number numeral) (blanksBefore : Blanks before)
      (blanksAfter : Blanks after) : Begun .afterStar (number ++ (before ++ '*' :: after))
  | afterUnknown {factor gap : List Char} {unknown : Char} (isFactor : Factor factor)
      (isUnknown : isVariable unknown = true) (isGap : Blanks gap) :
      Begun .afterUnknown (factor ++ unknown :: gap)
  | afterCaret {factor before after : List Char} {unknown : Char} (isFactor : Factor factor)
      (isUnknown : isVariable unknown = true) (blanksBefore : Blanks before)
      (blanksAfter : Blanks after) :
      Begun .afterCaret (factor ++ unknown :: (before ++ '^' :: after))
  | inExponent {factor before after digits : List Char} {unknown : Char}
      (isFactor : Factor factor) (isUnknown : isVariable unknown = true)
      (blanksBefore : Blanks before) (blanksAfter : Blanks after) (isExponent : Digits digits) :
      Begun .inExponent (factor ++ unknown :: (before ++ '^' :: (after ++ digits)))
  | afterExponent {body gap : List Char} {spelling : Spelling}
      (isBody : SpellsBody body spelling) (isGap : Blanks gap) :
      Begun .afterExponent (body ++ gap)

/-! ### One more character

What was begun goes on with a character of each kind in a lemma of its own. -/

section Step

variable {stage later : Stage} {front : List Char} {character : Char}

theorem Begun.blank (begun : Begun stage front) (goesOn : stage.next .blank = some later)
    (blank : isBlank character = true) : Begun later (front ++ [character]) := by
  have single : Blanks [character] := Blanks.nil.snoc blank
  cases begun with
  | start isGap =>
    cases goesOn
    exact .start (isGap.snoc blank)
  | signed isSign =>
    cases goesOn
    exact .signed (isSign.snoc blank)
  | inWhole isWhole =>
    cases goesOn
    exact .afterNumber (.whole isWhole) single
  | inFraction isWhole isFraction =>
    cases goesOn
    exact .afterNumber (.pointed isWhole isFraction) single
  | afterNumber isNumber isGap =>
    cases goesOn
    rw [List.append_assoc]
    exact .afterNumber isNumber (isGap.snoc blank)
  | afterStar isNumber blanksBefore blanksAfter =>
    cases goesOn
    simpa using Begun.afterStar isNumber blanksBefore (blanksAfter.snoc blank)
  | afterUnknown isFactor isUnknown isGap =>
    cases goesOn
    simpa using Begun.afterUnknown isFactor isUnknown (isGap.snoc blank)
  | afterCaret isFactor isUnknown blanksBefore blanksAfter =>
    cases goesOn
    simpa using Begun.afterCaret isFactor isUnknown blanksBefore (blanksAfter.snoc blank)
  | inExponent isFactor isUnknown blanksBefore blanksAfter isExponent =>
    cases goesOn
    obtain ⟨spelling, isBody⟩ :=
      isFactor.body (.raised isUnknown blanksBefore blanksAfter isExponent)
    exact .afterExponent isBody single
  | afterExponent isBody isGap =>
    cases goesOn
    rw [List.append_assoc]
    exact .afterExponent isBody (isGap.snoc blank)
  | atPoint => cases goesOn

theorem Begun.digit (begun : Begun stage front) (goesOn : stage.next .digit = some later)
    (behind : stage ≠ .start ∧ stage ≠ .signed) (digit : character.isDigit = true) :
    Begun later (front ++ [character]) := by
  cases begun with
  | start => exact absurd rfl behind.1
  | signed => exact absurd rfl behind.2
  | inWhole isWhole =>
    cases goesOn
    exact .inWhole (isWhole.snoc digit)
  | atPoint isWhole =>
    cases goesOn
    rw [List.append_assoc]
    exact .inFraction isWhole (.singleton digit)
  | inFraction isWhole isFraction =>
    cases goesOn
    rw [List.append_assoc]
    exact .inFraction isWhole (isFraction.snoc digit)
  | afterCaret isFactor isUnknown blanksBefore blanksAfter =>
    cases goesOn
    simpa using Begun.inExponent isFactor isUnknown blanksBefore blanksAfter (.singleton digit)
  | inExponent isFactor isUnknown blanksBefore blanksAfter isExponent =>
    cases goesOn
    simpa using
      Begun.inExponent isFactor isUnknown blanksBefore blanksAfter (isExponent.snoc digit)
  | _ => cases goesOn

theorem Begun.unknown (begun : Begun stage front) (goesOn : stage.next .unknown = some later)
    (behind : stage ≠ .start ∧ stage ≠ .signed) (isUnknown : isVariable character = true) :
    Begun later (front ++ [character]) := by
  cases begun with
  | start => exact absurd rfl behind.1
  | signed => exact absurd rfl behind.2
  | afterStar isNumber blanksBefore blanksAfter =>
    cases goesOn
    exact .afterUnknown (.number isNumber blanksBefore blanksAfter) isUnknown Blanks.nil
  | _ => cases goesOn

theorem Begun.point (begun : Begun stage front) (goesOn : stage.next .point = some later) :
    Begun later (front ++ ['.']) := by
  cases begun with
  | inWhole isWhole =>
    cases goesOn
    exact .atPoint isWhole
  | _ => cases goesOn

/-- Where a multiplication sign can come, a number was read, and perhaps blanks behind it. -/
theorem Begun.number (begun : Begun stage front) (goesOn : stage.next .star = some later) :
    later = .afterStar ∧ ∃ number gap numeral, front = number ++ gap ∧
      SpellsNumber number numeral ∧ Blanks gap := by
  cases begun with
  | inWhole isWhole =>
    cases goesOn
    exact ⟨rfl, _, [], _, (List.append_nil _).symm, .whole isWhole, Blanks.nil⟩
  | inFraction isWhole isFraction =>
    cases goesOn
    exact ⟨rfl, _, [], _, (List.append_nil _).symm, .pointed isWhole isFraction, Blanks.nil⟩
  | afterNumber isNumber isGap =>
    cases goesOn
    exact ⟨rfl, _, _, _, rfl, isNumber, isGap⟩
  | _ => cases goesOn

theorem Begun.star (begun : Begun stage front) (goesOn : stage.next .star = some later) :
    Begun later (front ++ ['*']) := by
  obtain ⟨rfl, number, gap, numeral, rfl, isNumber, isGap⟩ := begun.number goesOn
  rw [List.append_assoc]
  exact .afterStar isNumber isGap Blanks.nil

theorem Begun.caret (begun : Begun stage front) (goesOn : stage.next .caret = some later) :
    Begun later (front ++ ['^']) := by
  cases begun with
  | afterUnknown isFactor isUnknown isGap =>
    cases goesOn
    simpa using Begun.afterCaret isFactor isUnknown isGap Blanks.nil
  | _ => cases goesOn

theorem Stage.next_sign (goesOn : stage.next .sign = some later) : later = .signed := by
  cases stage <;> cases goesOn <;> rfl

/-- **Within a term, the next character keeps to the form that the next stage stands for.** -/
theorem Begun.next (begun : Begun stage front) (goesOn : stage.next (kindOf character) = some later)
    (inside : later ≠ .signed) (behind : stage ≠ .start ∧ stage ≠ .signed) :
    Begun later (front ++ [character]) := by
  have covers := covers_kindOf character
  generalize kindOf character = kind at goesOn covers
  cases kind with
  | blank => exact begun.blank goesOn covers
  | digit => exact begun.digit goesOn behind covers
  | unknown => exact begun.unknown goesOn behind covers
  | sign => exact absurd (Stage.next_sign goesOn) inside
  | point =>
    cases covers
    exact begun.point goesOn
  | star =>
    cases covers
    exact begun.star goesOn
  | caret =>
    cases covers
    exact begun.caret goesOn
  | other => cases stage <;> cases goesOn

end Step

/-- Where a term may end, a body was read, and perhaps blanks behind it. -/
theorem Begun.body {stage : Stage} {front : List Char} (begun : Begun stage front)
    (mayEnd : stage.mayEnd = true) :
    ∃ body gap spelling, front = body ++ gap ∧ SpellsBody body spelling ∧ Blanks gap := by
  have alone : ∀ {spelling : Spelling}, SpellsBody front spelling →
      ∃ body gap spelling, front = body ++ gap ∧ SpellsBody body spelling ∧ Blanks gap :=
    fun isBody => ⟨front, [], _, (List.append_nil _).symm, isBody, Blanks.nil⟩
  cases begun with
  | start | signed | atPoint | afterStar | afterCaret => cases mayEnd
  | inWhole isWhole => exact alone (.number (.whole isWhole))
  | inFraction isWhole isFraction => exact alone (.number (.pointed isWhole isFraction))
  | afterNumber isNumber isGap => exact ⟨_, _, _, rfl, .number isNumber, isGap⟩
  | @afterUnknown factor gap unknown isFactor isUnknown isGap =>
    obtain ⟨spelling, isBody⟩ := isFactor.body (.bare isUnknown)
    exact ⟨factor ++ [unknown], gap, spelling, by simp, isBody, isGap⟩
  | inExponent isFactor isUnknown blanksBefore blanksAfter isExponent =>
    obtain ⟨spelling, isBody⟩ :=
      isFactor.body (.raised isUnknown blanksBefore blanksAfter isExponent)
    exact alone isBody
  | afterExponent isBody isGap => exact ⟨_, _, _, rfl, isBody, isGap⟩

/-- A body and what stands behind it to the end of the side. -/
def Unsigned (text : List Char) : Prop :=
  ∃ body later spelling phrases, text = body ++ later ∧ SpellsBody body spelling ∧
    SpellsLater later phrases

/-- Signed terms to the end of the side, one at least. -/
def Signed (text : List Char) : Prop :=
  ∃ phrase phrases, SpellsLater text (phrase :: phrases)

theorem Unsigned.side {gap text : List Char} (isUnsigned : Unsigned text) (isGap : Blanks gap) :
    Complete (gap ++ text) := by
  obtain ⟨body, later, spelling, phrases, rfl, isBody, isLater⟩ := isUnsigned
  exact ⟨_, .unsigned isGap isBody isLater⟩

theorem Unsigned.signed {sign text : List Char} {negative : Bool} (isUnsigned : Unsigned text)
    (isSign : SpellsSign sign negative) : Signed (sign ++ text) := by
  obtain ⟨body, later, spelling, phrases, rfl, isBody, isLater⟩ := isUnsigned
  exact ⟨_, _, .more Blanks.nil isSign isBody isLater⟩

theorem Signed.side {gap text : List Char} (isSigned : Signed text) (isGap : Blanks gap) :
    Complete (gap ++ text) := by
  obtain ⟨phrase, phrases, isLater⟩ := isSigned
  have isWhole := isLater.blanks_append isGap
  generalize gap ++ text = side at isWhole ⊢
  cases isWhole with
  | more blanksBefore isSign isBody isLater =>
    exact ⟨_, .signed blanksBefore isSign isBody isLater⟩

theorem Signed.unsigned {front text : List Char} {stage : Stage} (isSigned : Signed text)
    (begun : Begun stage front) (mayEnd : stage.mayEnd = true) : Unsigned (front ++ text) := by
  obtain ⟨phrase, phrases, isLater⟩ := isSigned
  obtain ⟨body, gap, spelling, rfl, isBody, isGap⟩ := begun.body mayEnd
  exact ⟨body, gap ++ text, spelling, _, List.append_assoc _ _ _, isBody,
    isLater.blanks_append isGap⟩

theorem exists_sign {character : Char} (covers : Kind.sign.Covers character) :
    ∃ negative, SpellsSign [character] negative := by
  rcases covers with rfl | rfl
  · exact ⟨_, .plus Blanks.nil⟩
  · exact ⟨_, .minus Blanks.nil⟩

namespace Stage

/-- What is read from the beginning of the side, of a sign or of a body to the end. -/
def Finishes : Stage → List Char → Prop
  | .start, text => Complete text
  | .signed, text => Signed text
  | _, text => Unsigned text

theorem finishes_of_unsigned {stage : Stage} {text : List Char} (isUnsigned : Unsigned text)
    (behind : stage ≠ .start ∧ stage ≠ .signed) : stage.Finishes text := by
  cases stage with
  | start => exact absurd rfl behind.1
  | signed => exact absurd rfl behind.2
  | _ => exact isUnsigned

theorem unsigned_of_finishes {stage : Stage} {text : List Char} (finishes : stage.Finishes text)
    (behind : stage ≠ .start ∧ stage ≠ .signed) : Unsigned text := by
  cases stage with
  | start => exact absurd rfl behind.1
  | signed => exact absurd rfl behind.2
  | _ => exact finishes

/-- Within a term there is no way back to the beginning, and a new sign ends the term. -/
theorem next_of_behind {stage later : Stage} {kind : Kind}
    (goesOn : stage.next kind = some later) (behind : stage ≠ .start ∧ stage ≠ .signed) :
    later ≠ .start ∧ (later = .signed → kind = .sign ∧ stage.mayEnd = true) := by
  cases stage <;> cases kind <;> cases goesOn <;> simp_all [mayEnd]

/-- In front of a body a blank changes nothing, a sign may come at the beginning of the side,
and anything else begins the body. -/
theorem next_of_opening {stage later : Stage} {character : Char}
    (opening : stage = .start ∨ stage = .signed)
    (goesOn : stage.next (kindOf character) = some later) :
    (kindOf character = .blank ∧ later = stage) ∨
      (kindOf character = .sign ∧ stage = .start ∧ later = .signed) ∨
      Begun later [character] ∧ later ≠ .start ∧ later ≠ .signed := by
  have covers := covers_kindOf character
  generalize kindOf character = kind at goesOn covers
  cases kind with
  | blank => rcases opening with rfl | rfl <;> cases goesOn <;> exact .inl ⟨rfl, rfl⟩
  | sign => rcases opening with rfl | rfl <;> cases goesOn; exact .inr (.inl ⟨rfl, rfl, rfl⟩)
  | digit =>
    have begun : Begun .inWhole [character] := .inWhole (.singleton covers)
    rcases opening with rfl | rfl <;> cases goesOn <;>
      exact .inr (.inr ⟨begun, Stage.noConfusion, Stage.noConfusion⟩)
  | unknown =>
    have begun : Begun .afterUnknown [character] := .afterUnknown .none covers Blanks.nil
    rcases opening with rfl | rfl <;> cases goesOn <;>
      exact .inr (.inr ⟨begun, Stage.noConfusion, Stage.noConfusion⟩)
  | _ => rcases opening with rfl | rfl <;> cases goesOn

/-- A body and what is behind it finish what stands in front of a body. -/
theorem finishes_of_opening {stage : Stage} {front text : List Char}
    (opening : stage = .start ∨ stage = .signed) (begun : Begun stage front)
    (isUnsigned : Unsigned text) : stage.Finishes (front ++ text) := by
  cases begun with
  | start isGap => exact isUnsigned.side isGap
  | signed isSign => exact isUnsigned.signed isSign
  | _ => exact absurd opening (not_or.mpr ⟨Stage.noConfusion, Stage.noConfusion⟩)

/-- **A text that leads on to where a term may end finishes what was begun.** -/
theorem finishes_of_run {stage last : Stage} {front text : List Char} (begun : Begun stage front)
    (reached : stage.run text = some last) (mayEnd : last.mayEnd = true) :
    stage.Finishes (front ++ text) := by
  induction text generalizing stage front with
  | nil =>
    cases reached
    obtain ⟨body, gap, spelling, rfl, isBody, isGap⟩ := begun.body mayEnd
    refine finishes_of_unsigned ⟨body, gap, spelling, _, List.append_nil _, isBody, .done isGap⟩ ?_
    constructor <;> (rintro rfl; cases mayEnd)
  | cons character text ih =>
    obtain ⟨later, goesOn, reachedLater⟩ := Option.bind_eq_some_iff.mp reached
    have moved : front ++ character :: text = front ++ [character] ++ text := by simp
    by_cases opening : stage = .start ∨ stage = .signed
    · rcases next_of_opening opening goesOn with
        ⟨blank, rfl⟩ | ⟨isSign, rfl, rfl⟩ | ⟨begins, behind⟩
      · have covers := covers_kindOf character
        rw [blank] at goesOn covers
        rw [moved]
        exact ih (begun.blank goesOn covers) reachedLater
      · obtain ⟨negative, isSign⟩ := exists_sign (isSign ▸ covers_kindOf character)
        cases begun with
        | start isGap => exact (ih (.signed isSign) reachedLater : Signed _).side isGap
      · exact finishes_of_opening opening begun
          (unsigned_of_finishes (ih begins reachedLater) behind)
    · have behind := not_or.mp opening
      refine finishes_of_unsigned ?_ behind
      obtain ⟨notStart, ofSigned⟩ := next_of_behind goesOn behind
      by_cases signed : later = .signed
      · obtain ⟨isSign, endsHere⟩ := ofSigned signed
        obtain ⟨negative, isSign⟩ := exists_sign (isSign ▸ covers_kindOf character)
        subst signed
        exact (ih (.signed isSign) reachedLater : Signed _).unsigned begun endsHere
      · rw [moved]
        exact unsigned_of_finishes (ih (begun.next goesOn signed behind) reachedLater)
          ⟨notStart, signed⟩

/-- A text after which a term may end. -/
def completion : Stage → List Char
  | .start | .signed | .afterStar => ['x']
  | .atPoint | .afterCaret => ['0']
  | _ => []

theorem run_completion (stage : Stage) :
    ∃ last, stage.run stage.completion = some last ∧ last.mayEnd = true := by
  cases stage <;> exact ⟨_, rfl, rfl⟩

end Stage

/-- **A text is a side just when it leads to where a term may end.** -/
theorem complete_iff {text : List Char} :
    Complete text ↔ ∃ last, Stage.start.run text = some last ∧ last.mayEnd = true := by
  constructor
  · rintro ⟨phrases, isSide⟩
    exact isSide.run
  · rintro ⟨last, reached, mayEnd⟩
    exact Stage.finishes_of_run (.start Blanks.nil) reached mayEnd

/-- **A text is the front of a side just when every character of it leads on.** -/
theorem viable_iff {text : List Char} :
    Viable text ↔ ∃ last, Stage.start.run text = some last := by
  constructor
  · rintro ⟨more, complete⟩
    obtain ⟨last, reached, -⟩ := complete_iff.mp complete
    rw [Stage.run_append] at reached
    obtain ⟨between, reached, -⟩ := Option.bind_eq_some_iff.mp reached
    exact ⟨between, reached⟩
  · rintro ⟨last, reached⟩
    obtain ⟨behind, reachedBehind, mayEnd⟩ := last.run_completion
    refine ⟨last.completion, complete_iff.mpr ⟨behind, ?_, mayEnd⟩⟩
    rw [Stage.run_append_of _ reached, reachedBehind]

instance (text : List Char) : Decidable (Complete text) :=
  decidable_of_iff ((Stage.start.run text).any Stage.mayEnd = true)
    (by rw [complete_iff, Option.any_eq_true])

instance (text : List Char) : Decidable (Viable text) :=
  decidable_of_iff ((Stage.start.run text).isSome = true)
    (by rw [viable_iff, Option.isSome_iff_exists])

example : Viable "2 * ".toList ∧ ¬ Complete "2 * ".toList ∧ ¬ Viable "2 x".toList := by decide

end Quadratics.Equation
