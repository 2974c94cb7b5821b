import Quadratics.Proofs.Equation.Cursor
import Quadratics.Proofs.Equation.Reading
import Quadratics.Proofs.Equation.Stages

/-!
# Where the flaw of a side is

A side that is refused for its spelling ends too early, or it is cut in two where its flaw is:
the text in front was still the front of a side, and what is wrong begins behind it
(`readSide_flawed`).  Each flaw says more, and `Flaw.Means` spells it out in terms of the grammar
alone: the character that cannot come next, the exponent or the number that is out of range.

The scanner is followed through the stages of a side.  Whatever a scanning function takes off
the front of a text leads on from stage to stage, up to a place where only a sign can go on if
it succeeded (`Settled`), or to the place of its fault if it did not (`Stopped`).
-/

namespace Quadratics.Equation

set_option autoImplicit false

open Text (isBlank skipBlanks)

/-! ## What flaws mean -/

/-- Digits stand in front, and behind them a point and a digit. -/
def BeginsFractional (text : List Char) : Prop :=
  ∃ digits digit behind, text = digits ++ '.' :: digit :: behind ∧ Digits digits ∧
    digit.isDigit = true

/-- All the digits in front write an exponent that is out of range. -/
def BeginsHugeExponent (text : List Char) : Prop :=
  ∃ digits behind, text = digits ++ behind ∧ Digits digits ∧ startsWithDigit behind = false ∧
    2 ^ 32 ≤ digitsValue digits

/-- The longest number in front is so large that it is rounded to infinity. -/
def BeginsHugeNumber (text : List Char) : Prop :=
  ∃ number behind numeral, text = number ++ behind ∧ SpellsNumber number numeral ∧
    (∀ more other, more <+: behind → SpellsNumber (number ++ more) other → more = []) ∧
    Binary64.overflowBound ≤ numeral.exact ∧ numeral.value = .infinity false

/-- A mark stands at the end, but for blanks. -/
def EndsWith (mark : Char) (text : List Char) : Prop :=
  ∃ front gap, text = front ++ mark :: gap ∧ Blanks gap

/-- What a flaw says of the texts in front of it and from it on. -/
def Flaw.Means (flaw : Flaw) (before rest : List Char) : Prop :=
  match flaw with
  | .stray character =>
      Viable before ∧ ¬ Viable (before ++ [character]) ∧ rest.head? = some character
  | .unseparated =>
      Viable before ∧ Complete before ∧
        ∃ character, ¬ Viable (before ++ [character]) ∧ rest.head? = some character
  | .variableMissing =>
      Viable before ∧ EndsWith '*' before ∧
        ∀ character ∈ rest.head?, ¬ Viable (before ++ [character])
  | .exponentMissing =>
      Viable before ∧ EndsWith '^' before ∧
        ∀ character ∈ rest.head?, ¬ Viable (before ++ [character])
  | .exponentFractional => Viable before ∧ EndsWith '^' before ∧ BeginsFractional rest
  | .exponentHuge => Viable before ∧ EndsWith '^' before ∧ BeginsHugeExponent rest
  | .numberHuge => Viable before ∧ BeginsHugeNumber rest

/-- What a flaw says of the stage in which the scanner stops and of the text from there on. -/
def Flaw.Stops (flaw : Flaw) (stage : Stage) (rest : List Char) : Prop :=
  match flaw with
  | .stray character => stage.next (kindOf character) = none ∧ rest.head? = some character
  | .unseparated =>
      stage.mayEnd = true ∧
        ∃ character, stage.next (kindOf character) = none ∧ rest.head? = some character
  | .variableMissing =>
      stage = .afterStar ∧ ∀ character ∈ rest.head?, stage.next (kindOf character) = none
  | .exponentMissing =>
      stage = .afterCaret ∧ ∀ character ∈ rest.head?, stage.next (kindOf character) = none
  | .exponentFractional => stage = .afterCaret ∧ BeginsFractional rest
  | .exponentHuge => stage = .afterCaret ∧ BeginsHugeExponent rest
  | .numberHuge => BeginsHugeNumber rest

/-- What is left of a text from a fault on. -/
def Fault.rest : Fault → List Char
  | .unfinished => []
  | .flawed _ rest => rest

/-- What a fault says of the stage in which the scanner stops. -/
def Fault.Stops (stage : Stage) : Fault → Prop
  | .unfinished => stage.mayEnd = false
  | .flawed flaw rest => flaw.Stops stage rest

/-! ## From the stages to the grammar -/

/-- A text that leads behind a multiplication or power sign ends with it, but for blanks. -/
theorem endsWith_of_run {stage target : Stage} {mark : Char}
    (opener : target = .afterStar ∧ mark = '*' ∨ target = .afterCaret ∧ mark = '^')
    (elsewhere : stage ≠ target) {text : List Char} (reached : stage.run text = some target) :
    EndsWith mark text := by
  have opens : ∀ last character, last ≠ target → last.next (kindOf character) = some target →
      character = mark := by
    intro last character other goesOn
    have covers := covers_kindOf character
    generalize kindOf character = kind at goesOn covers
    rcases opener with ⟨rfl, rfl⟩ | ⟨rfl, rfl⟩ <;> cases last <;> cases kind <;> cases goesOn <;>
      first | exact covers | exact absurd rfl other
  have keeps : ∀ kind, target.next kind = some target → kind = .blank := by
    intro kind goesOn
    rcases opener with ⟨rfl, -⟩ | ⟨rfl, -⟩ <;> cases kind <;> first | rfl | cases goesOn
  induction text using List.reverseRecOn with
  | nil =>
    cases reached
    exact absurd rfl elsewhere
  | append_singleton front character ih =>
    rw [Stage.run_append] at reached
    obtain ⟨last, reachedLast, goesOn⟩ := Option.bind_eq_some_iff.mp reached
    obtain ⟨later, goesOn, same⟩ := Option.bind_eq_some_iff.mp goesOn
    cases same
    by_cases again : last = target
    · subst again
      obtain ⟨before, gap, rfl, isGap⟩ := ih reachedLast
      have blank := covers_kindOf character
      rw [keeps _ goesOn] at blank
      exact ⟨before, gap ++ [character], by simp, isGap.snoc blank⟩
    · cases opens last character again goesOn
      exact ⟨front, [], rfl, Blanks.nil⟩

/-- A character that leads on from no stage keeps a text from being the front of a side. -/
theorem not_viable_snoc {before : List Char} {stage : Stage} {character : Char}
    (reached : Stage.start.run before = some stage) (stops : stage.next (kindOf character) = none) :
    ¬ Viable (before ++ [character]) := by
  intro viable
  obtain ⟨last, reachedLast⟩ := viable_iff.mp viable
  rw [Stage.run_append_of _ reached, Stage.run, stops] at reachedLast
  cases reachedLast

/-- A text that leads to where no term may end is no side. -/
theorem not_complete_of_run {text : List Char} {stage : Stage}
    (reached : Stage.start.run text = some stage) (mayNotEnd : stage.mayEnd = false) :
    ¬ Complete text := by
  intro complete
  obtain ⟨last, reachedLast, mayEnd⟩ := complete_iff.mp complete
  rw [reached] at reachedLast
  cases reachedLast
  rw [mayNotEnd] at mayEnd
  cases mayEnd

/-- **What stops the scanner in a stage is what the flaw means.** -/
theorem Flaw.means_of_stops {flaw : Flaw} {stage : Stage} {before rest : List Char}
    (reached : Stage.start.run before = some stage) (stops : flaw.Stops stage rest) :
    flaw.Means before rest := by
  have viable : Viable before := viable_iff.mpr ⟨stage, reached⟩
  cases flaw with
  | stray character => exact ⟨viable, not_viable_snoc reached stops.1, stops.2⟩
  | unseparated =>
    obtain ⟨mayEnd, character, stops, head⟩ := stops
    exact ⟨viable, complete_iff.mpr ⟨stage, reached, mayEnd⟩, character,
      not_viable_snoc reached stops, head⟩
  | variableMissing =>
    obtain ⟨rfl, stops⟩ := stops
    exact ⟨viable, endsWith_of_run (.inl ⟨rfl, rfl⟩) Stage.noConfusion reached,
      fun _ head => not_viable_snoc reached (stops _ head)⟩
  | exponentMissing =>
    obtain ⟨rfl, stops⟩ := stops
    exact ⟨viable, endsWith_of_run (.inr ⟨rfl, rfl⟩) Stage.noConfusion reached,
      fun _ head => not_viable_snoc reached (stops _ head)⟩
  | exponentFractional =>
    obtain ⟨rfl, fractional⟩ := stops
    exact ⟨viable, endsWith_of_run (.inr ⟨rfl, rfl⟩) Stage.noConfusion reached, fractional⟩
  | exponentHuge =>
    obtain ⟨rfl, huge⟩ := stops
    exact ⟨viable, endsWith_of_run (.inr ⟨rfl, rfl⟩) Stage.noConfusion reached, huge⟩
  | numberHuge => exact ⟨viable, stops⟩

/-! ## Scanning through the stages -/

/-- Only a sign can go on from a stage. -/
def Stage.OnlySign (stage : Stage) (rest : List Char) : Prop :=
  ∀ character ∈ rest.head?, stage.next (kindOf character) = none ∨ kindOf character = .sign

/-- A text leads to where a term may end and only a sign can go on, when blanks are skipped. -/
def Settled (stage : Stage) (text rest : List Char) : Prop :=
  ∃ taken later, text = taken ++ skipBlanks rest ∧ stage.run taken = some later ∧
    later.mayEnd = true ∧ later.OnlySign (skipBlanks rest)

/-- A text leads to a fault. -/
def Stopped (stage : Stage) (text : List Char) (fault : Fault) : Prop :=
  ∃ taken later, text = taken ++ fault.rest ∧ stage.run taken = some later ∧
    fault.Stops later

/-- What was scanned from a stage on follows the stages. -/
def Agrees {Found : Type} (stage : Stage) (text : List Char) :
    Except Fault (Found × List Char) → Prop
  | .ok result => Settled stage text result.2
  | .error fault => Stopped stage text fault

section Agrees

variable {Found Other : Type} {stage later : Stage} {front text whole : List Char} {fault : Fault}
  {result : Except Fault (Found × List Char)}

theorem Stopped.behind (reached : stage.run front = some later) (whole_eq : whole = front ++ text)
    (stopped : Stopped later text fault) : Stopped stage whole fault := by
  obtain ⟨taken, last, rfl, reachedLast, stops⟩ := stopped
  refine ⟨front ++ taken, last, ?_, ?_, stops⟩
  · rw [whole_eq, List.append_assoc]
  · rw [Stage.run_append_of _ reached, reachedLast]

theorem Settled.behind {rest : List Char} (reached : stage.run front = some later)
    (whole_eq : whole = front ++ text) (settled : Settled later text rest) :
    Settled stage whole rest := by
  obtain ⟨taken, last, text_eq, reachedLast, mayEnd, onlySign⟩ := settled
  refine ⟨front ++ taken, last, ?_, ?_, mayEnd, onlySign⟩
  · rw [whole_eq, text_eq, List.append_assoc]
  · rw [Stage.run_append_of _ reached, reachedLast]

/-- What was read before is put in front. -/
theorem Agrees.behind (reached : stage.run front = some later) (whole_eq : whole = front ++ text)
    (agrees : Agrees later text result) : Agrees stage whole result := by
  cases result with
  | error fault => exact Stopped.behind reached whole_eq agrees
  | ok found => exact Settled.behind reached whole_eq agrees

/-- What is made of the characters that were taken does not matter. -/
theorem Agrees.map {change : Found × List Char → Other × List Char}
    (agrees : Agrees stage text result) (keeps : ∀ found, (change found).2 = found.2) :
    Agrees stage text (result.map change) := by
  cases result with
  | error fault => exact agrees
  | ok found =>
    show Settled stage text (change found).2
    rw [keeps]
    exact agrees

theorem Stopped.here (flaw : Flaw) (stops : flaw.Stops stage text) :
    Stopped stage text (.flawed flaw text) :=
  ⟨[], stage, rfl, rfl, stops⟩

theorem Stopped.atEnd (mayNotEnd : stage.mayEnd = false) : Stopped stage [] .unfinished :=
  ⟨[], stage, rfl, rfl, mayNotEnd⟩

theorem Settled.here (mayEnd : stage.mayEnd = true) (visible : skipBlanks text = text)
    (onlySign : stage.OnlySign text) : Settled stage text text :=
  ⟨[], stage, visible.symm, rfl, mayEnd, visible.symm ▸ onlySign⟩

end Agrees

theorem kindOf_ne {kind : Kind} {character : Char} (not : ¬ kind.Covers character) :
    kindOf character ≠ kind := by
  rintro rfl
  exact not (covers_kindOf character)

/-- Where blanks were skipped, there is none. -/
theorem kindOf_ne_blank {text : List Char} {character : Char}
    (head : character ∈ (skipBlanks text).head?) : kindOf character ≠ .blank := by
  have visible := skipBlanks_skipBlanks text
  rw [List.eq_cons_of_mem_head? head] at visible
  exact kindOf_ne (by simp [Kind.Covers, visible_of_skipBlanks visible])

/-- The blanks in front of a text lead to the same stage or to the one for what is behind them. -/
theorem Stage.run_gap {stage behind : Stage} (blank : stage.next .blank = some behind)
    (keeps : behind.next .blank = some behind) (text : List Char) :
    ∃ gap later, text = gap ++ skipBlanks text ∧ stage.run gap = some later ∧
      (later = stage ∧ skipBlanks text = text ∨ later = behind) := by
  obtain ⟨gap, isGap, text_eq⟩ := exists_gap text
  cases gap with
  | nil => exact ⟨[], stage, text_eq, rfl, .inl ⟨rfl, text_eq.symm⟩⟩
  | cons first others =>
    refine ⟨_, behind, text_eq, ?_, .inr rfl⟩
    rw [← kindOf_blank (isGap first List.mem_cons_self)] at blank
    rw [run_cons others blank]
    exact run_blanks keeps fun other member => isGap other (List.mem_cons_of_mem _ member)

/-! ## Exponents -/

/-- What is behind all the digits of a text is no digit. -/
theorem kindOf_ne_digit {text : List Char} {character : Char}
    (head : character ∈ (text.dropWhile Char.isDigit).head?) : kindOf character ≠ .digit := by
  refine kindOf_ne fun digit => ?_
  have none := List.head?_dropWhile_not Char.isDigit text
  rw [Option.mem_def.mp head] at none
  exact absurd digit (Bool.eq_false_iff.mp none)

theorem startsWithDigit_dropWhile (text : List Char) :
    startsWithDigit (text.dropWhile Char.isDigit) = false := by
  cases behind : text.dropWhile Char.isDigit with
  | nil => rfl
  | cons character others =>
    have none := List.head?_dropWhile_not Char.isDigit text
    rw [behind] at none
    exact none

theorem beginsFractional_of {text : List Char} (starts : startsWithDigit text = true)
    (fraction : startsWithFraction (text.dropWhile Char.isDigit) = true) :
    BeginsFractional text := by
  unfold startsWithFraction at fraction
  split at fraction
  · rename_i behind point
    cases behind with
    | nil => cases fraction
    | cons digit behind =>
      refine ⟨_, digit, behind, ?_, digits_takeWhile starts, fraction⟩
      rw [← point, List.takeWhile_append_dropWhile]
  · cases fraction

/-- Behind all the digits of an exponent, only a sign can go on. -/
theorem settled_of_digits {text : List Char} (isDigits : Digits (text.takeWhile Char.isDigit)) :
    Settled .afterCaret text (text.dropWhile Char.isDigit) := by
  have blank : Stage.inExponent.next .blank = some .afterExponent := rfl
  obtain ⟨gap, later, behind_eq, reached, place⟩ :=
    Stage.run_gap blank rfl (text.dropWhile Char.isDigit)
  refine Settled.behind (Stage.run_of_digits rfl rfl isDigits)
    List.takeWhile_append_dropWhile.symm ⟨gap, later, behind_eq, reached, ?_, ?_⟩
  · rcases place with ⟨rfl, -⟩ | rfl <;> rfl
  · intro character head
    have notBlank := kindOf_ne_blank head
    rcases place with ⟨rfl, same⟩ | rfl
    -- Without blanks a digit could go on, but there is none left.
    · rw [same] at head
      have notDigit := kindOf_ne_digit head
      generalize kindOf character = kind at notBlank notDigit
      cases kind <;> first | exact .inl rfl | exact .inr rfl | contradiction
    · generalize kindOf character = kind at notBlank
      cases kind <;> first | exact .inl rfl | exact .inr rfl | contradiction

/-- An exponent that is expected is found, or what is wrong with it. -/
theorem agrees_scanPower {text : List Char}
    (visible : ∀ character ∈ text.head?, kindOf character ≠ .blank) :
    Agrees .afterCaret text (scanPower text) := by
  unfold scanPower
  dsimp only
  split
  · rename_i none
    have stops : Flaw.exponentMissing.Stops .afterCaret text := by
      refine ⟨rfl, fun character head => ?_⟩
      have notBlank := visible character head
      have notDigit : kindOf character ≠ .digit := by
        rw [List.eq_cons_of_mem_head? head, Bool.not_eq_true'] at none
        exact kindOf_ne (Bool.eq_false_iff.mp none)
      generalize kindOf character = kind at notBlank notDigit
      cases kind <;> first | rfl | contradiction
    exact Stopped.here .exponentMissing stops
  · rename_i starts
    have isDigits := digits_takeWhile (by simpa using starts)
    split
    · rename_i fraction
      exact Stopped.here .exponentFractional
        ⟨rfl, beginsFractional_of (by simpa using starts) fraction⟩
    · split
      · rename_i huge
        exact Stopped.here .exponentHuge ⟨rfl, _, _, List.takeWhile_append_dropWhile.symm,
          isDigits, startsWithDigit_dropWhile text, huge⟩
      · exact settled_of_digits isDigits

/-- **Behind the unknown, an exponent is found, or none, or what is wrong with it.** -/
theorem agrees_scanExponent (text : List Char) :
    Agrees .afterUnknown text (scanExponent text) := by
  obtain ⟨gap, isGap, text_eq⟩ := exists_gap text
  refine Agrees.behind (Stage.run_blanks rfl isGap) text_eq ?_
  unfold scanExponent
  split
  · rename_i behind found
    obtain ⟨between, isBetween, behind_eq⟩ := exists_gap behind
    have power : Agrees .afterCaret (skipBlanks behind) (scanPower (skipBlanks behind)) :=
      agrees_scanPower fun _ head => kindOf_ne_blank head
    have reached : Stage.afterUnknown.run ('^' :: between) = some .afterCaret := by
      rw [Stage.run_cons _ (by rfl : Stage.afterUnknown.next (kindOf '^') = some .afterCaret)]
      exact Stage.run_blanks rfl isBetween
    rw [found]
    exact Agrees.behind reached (congrArg _ behind_eq) (power.map fun _ => rfl)
  · rename_i noCaret
    refine Settled.here rfl (skipBlanks_skipBlanks text) fun character head => ?_
    have notBlank := kindOf_ne_blank head
    have notCaret : kindOf character ≠ .caret := by
      refine kindOf_ne fun caret => ?_
      cases caret
      exact noCaret _ (List.eq_cons_of_mem_head? head)
    generalize kindOf character = kind at notBlank notCaret
    cases kind <;> first | exact .inl rfl | exact .inr rfl | contradiction

/-! ## Numbers -/

/-- A number is behind, and cannot go on. -/
def Stage.BehindNumber (stage : Stage) (rest : List Char) : Prop :=
  (stage = .inWhole ∨ stage = .inFraction) ∧
    ∀ character ∈ rest.head?, stage.next (kindOf character) = none ∨
      kindOf character = .blank ∨ kindOf character = .star ∨ kindOf character = .sign

/-- Where the unknown is missing, nothing leads on. -/
theorem stopped_of_scanVariable {text : List Char} {fault : Fault}
    (visible : ∀ character ∈ text.head?, kindOf character ≠ .blank)
    (failed : scanVariable text = .error fault) : Stopped .afterStar text fault := by
  unfold scanVariable at failed
  split at failed
  · rename_i first behind
    split at failed <;> cases failed
    rename_i notVariable
    have notBlank := visible first rfl
    have notUnknown : kindOf first ≠ .unknown := kindOf_ne notVariable
    refine Stopped.here .variableMissing ⟨rfl, fun character head => ?_⟩
    cases head
    generalize kindOf first = kind at notBlank notUnknown
    cases kind <;> first | rfl | contradiction
  · cases failed
    exact Stopped.here .variableMissing ⟨rfl, fun _ head => by cases head⟩

/-- **What follows a number agrees with the stages.** -/
theorem agrees_scanMultiple (numeral : Numeral) {stage : Stage} {text : List Char}
    (behind : stage.BehindNumber text) : Agrees stage text (scanMultiple numeral text) := by
  obtain ⟨inNumber, ends⟩ := behind
  have blank : stage.next .blank = some .afterNumber := by rcases inNumber with rfl | rfl <;> rfl
  obtain ⟨gap, later, text_eq, reached, place⟩ := Stage.run_gap blank rfl text
  have star : later.next .star = some .afterStar := by
    rcases place with ⟨rfl, -⟩ | rfl
    · rcases inNumber with rfl | rfl <;> rfl
    · rfl
  refine Agrees.behind reached text_eq ?_
  unfold scanMultiple
  split
  · rename_i others found
    obtain ⟨between, isBetween, others_eq⟩ := exists_gap others
    have reachedStar : later.run ('*' :: between) = some .afterStar := by
      rw [Stage.run_cons _ (by exact star)]
      exact Stage.run_blanks rfl isBetween
    rw [found]
    refine Agrees.behind reachedStar (congrArg _ others_eq) ?_
    cases variableScanned : scanVariable (skipBlanks others) with
    | error fault =>
      exact stopped_of_scanVariable (fun _ head => kindOf_ne_blank head) variableScanned
    | ok afterUnknown =>
      obtain ⟨unknown, unknown_eq, isUnknown⟩ := exists_of_scanVariable variableScanned
      have reachedUnknown : Stage.afterStar.run [unknown] = some .afterUnknown :=
        Stage.run_cons [] (by rw [kindOf_unknown isUnknown]; rfl)
      rw [unknown_eq]
      exact Agrees.behind reachedUnknown rfl ((agrees_scanExponent afterUnknown).map fun _ => rfl)
  · rename_i noStar
    refine Settled.here ?_ (skipBlanks_skipBlanks text) fun character head => ?_
    · rcases place with ⟨rfl, -⟩ | rfl
      · rcases inNumber with rfl | rfl <;> rfl
      · rfl
    · have notBlank := kindOf_ne_blank head
      have notStar : kindOf character ≠ .star := by
        refine kindOf_ne fun same => ?_
        cases same
        exact noStar _ (List.eq_cons_of_mem_head? head)
      rcases place with ⟨rfl, same⟩ | rfl
      -- Without blanks the number itself could go on, but it was read to its end.
      · rw [same] at head
        rcases ends character head with none | same | same | same
        · exact .inl none
        · exact absurd same notBlank
        · exact absurd same notStar
        · exact .inr same
      · generalize kindOf character = kind at notBlank notStar
        cases kind <;> first | exact .inl rfl | exact .inr rfl | contradiction

theorem SpellsNumber.kinds {text : List Char} {numeral : Numeral}
    (isNumber : SpellsNumber text numeral) :
    ∀ character ∈ text, kindOf character = .digit ∨ kindOf character = .point := by
  have ofDigits : ∀ {digits : List Char}, Digits digits →
      ∀ character ∈ digits, kindOf character = .digit ∨ kindOf character = .point :=
    fun isDigits character member => .inl (kindOf_digit (isDigits.2 character member))
  cases isNumber with
  | whole isWhole => exact ofDigits isWhole
  | pointed isWhole isFraction =>
    intro character member
    rcases List.mem_append.mp member with member | member
    · exact ofDigits isWhole character member
    · rcases List.mem_cons.mp member with rfl | member
      · exact .inr rfl
      · exact ofDigits isFraction character member

/-- A number that cannot go on is the longest one. -/
theorem Stage.BehindNumber.longest {stage later : Stage} {number rest more : List Char}
    {numeral : Numeral} (begins : stage.next .digit = some .inWhole)
    (reached : stage.run number = some later) (behind : later.BehindNumber rest)
    (front : more <+: rest) (longer : SpellsNumber (number ++ more) numeral) : more = [] := by
  cases more with
  | nil => rfl
  | cons character others =>
    obtain ⟨tail, rfl⟩ := front
    obtain ⟨last, reachedLast, -⟩ := longer.run begins
    rw [Stage.run_append_of _ reached, Stage.run] at reachedLast
    have kinds := longer.kinds character (List.mem_append_right _ List.mem_cons_self)
    rcases behind.2 character rfl with none | other
    · rw [none] at reachedLast
      cases reachedLast
    · rcases kinds with kind | kind <;> simp [kind] at other

/-- A numeral whose value is not finite writes a number from the overflow bound on. -/
theorem Numeral.infinite {numeral : Numeral} (infinite : numeral.value.isFinite = false) :
    Binary64.overflowBound ≤ numeral.exact ∧ numeral.value = .infinity false := by
  have nonneg : 0 ≤ numeral.exact := div_nonneg (Nat.cast_nonneg _) (by positivity)
  cases numeral.roundsTo with
  | near _ finite =>
    rw [infinite] at finite
    cases finite
  | far outside same =>
    rw [abs_of_nonneg nonneg] at outside
    rw [decide_eq_false nonneg.not_gt] at same
    exact ⟨outside, same⟩

section Numeral

variable {stage : Stage} {text : List Char}

theorem exists_run_of_scanFraction {fraction rest : List Char}
    (begins : stage.next .digit = some .inWhole) (starts : startsWithDigit text = true)
    (scanned : scanFraction (text.dropWhile Char.isDigit) = .ok (fraction, rest)) :
    ∃ number later, text = number ++ rest ∧
      SpellsNumber number ⟨text.takeWhile Char.isDigit, fraction⟩ ∧
      stage.run number = some later ∧ later.BehindNumber rest := by
  have whole := digits_takeWhile starts
  have apart : text = text.takeWhile Char.isDigit ++ text.dropWhile Char.isDigit :=
    List.takeWhile_append_dropWhile.symm
  unfold scanFraction at scanned
  split at scanned
  · rename_i after point
    split at scanned
    · rename_i startsFraction
      cases scanned
      have isFraction := digits_takeWhile startsFraction
      refine ⟨_, .inFraction, ?_, .pointed whole isFraction,
        Stage.run_pointed begins whole isFraction, .inr rfl, fun character head => ?_⟩
      · rw [List.append_assoc, List.cons_append, List.takeWhile_append_dropWhile, ← point]
        exact apart
      · have notDigit := kindOf_ne_digit head
        generalize kindOf character = kind at notDigit
        cases kind <;> simp [Stage.next] at notDigit ⊢
    · cases scanned
  · rename_i noPoint
    cases scanned
    refine ⟨_, .inWhole, apart, .whole whole, Stage.run_of_digits begins rfl whole, .inl rfl,
      fun character head => ?_⟩
    have notDigit := kindOf_ne_digit head
    have notPoint : kindOf character ≠ .point := by
      refine kindOf_ne fun same => ?_
      cases same
      exact noPoint _ (List.eq_cons_of_mem_head? head)
    generalize kindOf character = kind at notDigit notPoint
    cases kind <;> simp [Stage.next] at notDigit notPoint ⊢

/-- A number that was scanned leads to where it cannot go on. -/
theorem exists_run_of_scanNumeral {numeral : Numeral} {rest : List Char}
    (begins : stage.next .digit = some .inWhole) (starts : startsWithDigit text = true)
    (scanned : scanNumeral text = .ok (numeral, rest)) :
    ∃ number later, text = number ++ rest ∧ stage.run number = some later ∧
      later.BehindNumber rest := by
  unfold scanNumeral at scanned
  split at scanned
  · cases scanned
  · rename_i fractionScanned
    dsimp only at scanned
    split at scanned <;> cases scanned
    obtain ⟨number, later, text_eq, -, reached, behind⟩ :=
      exists_run_of_scanFraction begins starts fractionScanned
    exact ⟨number, later, text_eq, reached, behind⟩

/-- What cannot go on as it does stops the scanner in a stage where no term may end. -/
theorem stopped_unexpected (mayNotEnd : stage.mayEnd = false)
    (stops : ∀ character ∈ text.head?, stage.next (kindOf character) = none) :
    Stopped stage text (unexpected text) := by
  cases text with
  | nil => exact Stopped.atEnd mayNotEnd
  | cons character behind =>
    exact Stopped.here (.stray character) ⟨stops character rfl, rfl⟩

/-- **What is wrong with a number is a point without digits, or its size.** -/
theorem stopped_of_scanNumeral {fault : Fault} (begins : stage.next .digit = some .inWhole)
    (starts : startsWithDigit text = true) (failed : scanNumeral text = .error fault) :
    Stopped stage text fault := by
  have whole := digits_takeWhile starts
  have apart : text = text.takeWhile Char.isDigit ++ text.dropWhile Char.isDigit :=
    List.takeWhile_append_dropWhile.symm
  unfold scanNumeral at failed
  split at failed
  · rename_i fractionFailed
    cases failed
    unfold scanFraction at fractionFailed
    split at fractionFailed
    · rename_i after point
      split at fractionFailed <;> cases fractionFailed
      rename_i noDigit
      have reached : stage.run (text.takeWhile Char.isDigit ++ ['.']) = some .atPoint := by
        rw [Stage.run_append_of _ (Stage.run_of_digits begins rfl whole)]
        rfl
      have text_eq : text = text.takeWhile Char.isDigit ++ ['.'] ++ after := by
        rw [List.append_assoc, List.singleton_append, ← point]
        exact apart
      refine Stopped.behind reached text_eq (stopped_unexpected rfl fun character head => ?_)
      have notDigit : kindOf character ≠ .digit := by
        rw [List.eq_cons_of_mem_head? head] at noDigit
        exact kindOf_ne noDigit
      generalize kindOf character = kind at notDigit
      cases kind <;> first | rfl | contradiction
    · cases fractionFailed
  · rename_i fraction rest fractionScanned
    dsimp only at failed
    split at failed <;> cases failed
    rename_i infinite
    obtain ⟨number, later, text_eq, isNumber, reached, behind⟩ :=
      exists_run_of_scanFraction begins starts fractionScanned
    exact Stopped.here .numberHuge ⟨number, rest, _, text_eq, isNumber,
      fun _ _ front longer => behind.longest begins reached front longer,
      Numeral.infinite (Bool.eq_false_iff.mpr infinite)⟩

end Numeral

/-! ## Terms -/

/-- **A body that was scanned agrees with the stages**, where no sign can stand in front of it. -/
theorem agrees_scanBody {stage : Stage} {text : List Char}
    (begins : stage = .start ∨ stage = .signed)
    (ahead : ∀ character ∈ text.head?, stage.next (kindOf character) = none ∨
      kindOf character = .digit ∨ kindOf character = .unknown) :
    Agrees stage text (scanBody text) := by
  have mayNotEnd : stage.mayEnd = false := by rcases begins with rfl | rfl <;> rfl
  have digit : stage.next .digit = some .inWhole := by rcases begins with rfl | rfl <;> rfl
  have unknown : stage.next .unknown = some .afterUnknown := by
    rcases begins with rfl | rfl <;> rfl
  unfold scanBody
  split
  · exact Stopped.atEnd mayNotEnd
  · rename_i first behind
    split
    · rename_i isDigit
      have starts : startsWithDigit (first :: behind) = true := isDigit
      split
      · rename_i failed
        exact stopped_of_scanNumeral digit starts failed
      · rename_i scanned
        obtain ⟨number, later, text_eq, reached, behindNumber⟩ :=
          exists_run_of_scanNumeral digit starts scanned
        exact Agrees.behind reached text_eq (agrees_scanMultiple _ behindNumber)
    · rename_i noDigit
      split
      · rename_i isUnknown
        rw [← kindOf_unknown isUnknown] at unknown
        exact Agrees.behind (Stage.run_cons [] unknown) rfl
          ((agrees_scanExponent behind).map fun _ => rfl)
      · rename_i notVariable
        refine stopped_unexpected mayNotEnd fun character head => ?_
        cases head
        rcases ahead first rfl with none | same | same
        · exact none
        · exact absurd same (kindOf_ne noDigit)
        · exact absurd same (kindOf_ne notVariable)

/-- A term may come next: the first of its side, or one behind another. -/
def Ready : Bool → Stage → List Char → Prop
  | true, stage, _ => stage = .start
  | false, stage, text => stage.mayEnd = true ∧ stage.OnlySign text

/-- **A term that was scanned agrees with the stages**, and so does a fault in it. -/
theorem agrees_scanTerm {isFirst : Bool} {stage : Stage} {text : List Char}
    (nonempty : text ≠ []) (visible : ∀ character ∈ text.head?, kindOf character ≠ .blank)
    (ready : Ready isFirst stage text) : Agrees stage text (scanTerm isFirst text) := by
  obtain ⟨first, behind, rfl⟩ := List.exists_cons_of_ne_nil nonempty
  by_cases isSign : kindOf first = .sign
  · have goesOn : stage.next (kindOf first) = some .signed := by
      rw [isSign]
      cases isFirst with
      | true => rw [ready]; rfl
      | false => exact Stage.next_sign_of_mayEnd ready.1
    obtain ⟨negative, scanned⟩ : ∃ negative,
        scanSign isFirst (first :: behind) = .ok (negative, skipBlanks behind) := by
      have covers := covers_kindOf first
      rw [isSign] at covers
      rcases covers with rfl | rfl <;> exact ⟨_, rfl⟩
    obtain ⟨gap, isGap, behind_eq⟩ := exists_gap behind
    have reached : stage.run (first :: gap) = some .signed := by
      rw [Stage.run_cons _ goesOn]
      exact Stage.run_blanks rfl isGap
    rw [scanTerm, scanned]
    refine Agrees.behind reached (congrArg _ behind_eq)
      ((agrees_scanBody (.inr rfl) fun character head => ?_).map fun _ => rfl)
    have notBlank := kindOf_ne_blank head
    generalize kindOf character = kind at notBlank
    cases kind <;> simp [Stage.next] at notBlank ⊢
  · have scanned : scanSign isFirst (first :: behind) =
        if isFirst then .ok (false, first :: behind)
        else .error (.flawed .unseparated (first :: behind)) := by
      rw [scanSign_cons, if_neg, if_neg]
      · rintro rfl
        exact isSign rfl
      · rintro rfl
        exact isSign rfl
    rw [scanTerm, scanned]
    cases isFirst with
    | true =>
      cases (ready : stage = .start)
      refine (agrees_scanBody (.inl rfl) fun character head => ?_).map fun _ => rfl
      cases head
      have notBlank := visible first rfl
      generalize kindOf first = kind at notBlank isSign
      cases kind <;> simp [Stage.next] at notBlank isSign ⊢
    | false =>
      obtain ⟨mayEnd, onlySign⟩ := ready
      exact Stopped.here .unseparated
        ⟨mayEnd, first, (onlySign first rfl).resolve_right isSign, rfl⟩

/-- **A scan that fails leads to its fault**, over all the terms in front of it. -/
theorem stopped_of_scan {isFirst : Bool} {stage : Stage} {text : List Char} {fault : Fault}
    (ready : Ready isFirst stage (skipBlanks text))
    (failed : (scan isFirst text).fault = some fault) : Stopped stage (skipBlanks text) fault := by
  -- Every term takes characters off the text, so the induction is on its length.
  induction length : text.length using Nat.strong_induction_on
    generalizing text isFirst stage with
  | _ size ih =>
    subst length
    by_cases none : skipBlanks text = []
    · rw [scan_of_blanks isFirst none] at failed
      cases failed
    · have agrees := agrees_scanTerm none (fun _ head => kindOf_ne_blank head) ready
      cases scanned : scanTerm isFirst (skipBlanks text) with
      | error first =>
        rw [scan_of_fault none scanned] at failed
        cases failed
        rw [scanned] at agrees
        exact agrees
      | ok result =>
        obtain ⟨token, rest⟩ := result
        rw [scan_of_scanTerm none scanned] at failed
        rw [scanned] at agrees
        obtain ⟨taken, later, text_eq, reached, mayEnd, onlySign⟩ := agrees
        have shorter : rest.length < text.length :=
          (length_of_scanTerm scanned).trans_le (Text.length_skipBlanks_le text)
        have readyLater : Ready false later (skipBlanks rest) := ⟨mayEnd, onlySign⟩
        exact Stopped.behind reached text_eq (ih _ shorter readyLater failed rfl)

/-! ## Sides that are refused -/

/-- **A side that is refused ends too early or is flawed where the refusal says.**  The place
that is given is the number of bytes in front of a character of the side, or of its end, and what
stands in front of it and from it on is what the flaw means. -/
theorem readSide_flawed {side : List Char} {refusal : Refusal} (visible : ¬ Blanks side)
    (refused : readSide side = .error refusal) :
    (refusal = .citing side .unfinished ∧ Viable side ∧ ¬ Complete side) ∨
      ∃ flaw before rest, side = before ++ rest ∧ byteLength before ≤ byteLength side ∧
        refusal = .citing side (.flawed flaw (byteLength before)) ∧ flaw.Means before rest := by
  unfold readSide at refused
  rw [if_neg (mt skipBlanks_eq_nil_iff.mp visible)] at refused
  dsimp only at refused
  split at refused
  · rename_i fault failed
    cases refused
    obtain ⟨gap, isGap, side_eq⟩ := exists_gap side
    have ready : Ready true .start (skipBlanks side) := rfl
    obtain ⟨taken, later, text_eq, reached, stops⟩ :=
      Stopped.behind (Stage.run_blanks rfl isGap) side_eq (stopped_of_scan ready failed)
    cases fault with
    | unfinished =>
      obtain rfl : side = taken := text_eq.trans (List.append_nil taken)
      exact .inl ⟨rfl, viable_iff.mpr ⟨later, reached⟩, not_complete_of_run reached stops⟩
    | flawed flaw rest =>
      have bytes : byteLength side = byteLength taken + byteLength rest := by
        rw [text_eq, byteLength_append]
        rfl
      have place : byteLength side - byteLength rest = byteLength taken := by
        rw [bytes, Nat.add_sub_cancel]
      refine .inr ⟨flaw, taken, rest, text_eq, bytes ▸ Nat.le_add_right _ _, ?_,
        Flaw.means_of_stops reached stops⟩
      rw [Fault.reason, place]
  · cases refused

/-- In `2\u3000x` the sign is missing behind a number of one byte and a blank of three. -/
theorem readSide_flawed_wide :
    readSide "2\u3000x".toList = .error ⟨"2\u3000x", .flawed .unseparated 4⟩ ∧
      ∃ before rest, "2\u3000x".toList = before ++ rest ∧ byteLength before = 4 ∧
        Flaw.unseparated.Means before rest := by
  have visible : ¬ Blanks "2\u3000x".toList :=
    fun isGap => absurd (isGap '2' (by decide)) (by decide)
  have refused : readSide "2\u3000x".toList = .error ⟨"2\u3000x", .flawed .unseparated 4⟩ := by
    decide +kernel
  rcases readSide_flawed visible refused with
    ⟨same, -, -⟩ | ⟨flaw, before, rest, side_eq, -, same, means⟩
  · cases (Refusal.mk.inj same).2
  · obtain ⟨-, reason⟩ := Refusal.mk.inj same
    obtain ⟨rfl, place⟩ := Reason.flawed.inj reason
    exact ⟨refused, before, rest, side_eq, place.symm, means⟩

end Quadratics.Equation
