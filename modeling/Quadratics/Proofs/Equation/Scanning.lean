import Mathlib.Data.List.DropRight
import Mathlib.Tactic
import Quadratics.Proofs.Equation.Grammar

/-!
# Scanning follows the grammar

Every scanning function is matched with the rule of the grammar for what it reads.
Read forward, it returns the derivation of a spelled text whatever stands behind,
as long as that cannot continue the text (`scanBody_append`).  Read backward, what
it takes off the front of a text is spelled by the rule (`spellsBody_of_scanBody`).
Put together over a side, scanning succeeds on the sentences of the grammar that
fit (`SpellsSide.scans`), and on nothing else (`spellsSide_of_scans`).

Blanks behind a number or a variable are skipped in looking for what may follow,
so what a body leaves over is told only up to leading blanks.
-/

namespace Quadratics.Equation

set_option autoImplicit false

open Text (isBlank skipBlanks)

/-! ## Runs of blanks and digits -/

theorem skipBlanks_append {gap : List Char} (isGap : Blanks gap) (text : List Char) :
    skipBlanks (gap ++ text) = skipBlanks text :=
  List.dropWhile_append_of_pos isGap

theorem skipBlanks_cons {character : Char} (visible : isBlank character = false)
    (text : List Char) : skipBlanks (character :: text) = character :: text := by
  rw [skipBlanks, List.dropWhile_cons_of_neg (by simp [visible])]

theorem skipBlanks_skipBlanks (text : List Char) :
    skipBlanks (skipBlanks text) = skipBlanks text :=
  List.dropWhile_idempotent _ _

/-- Where no blanks can be skipped, there is none. -/
theorem visible_of_skipBlanks {first : Char} {others : List Char}
    (visible : skipBlanks (first :: others) = first :: others) : isBlank first = false := by
  by_contra blank
  have shorter := Text.length_skipBlanks_le others
  rw [skipBlanks, List.dropWhile_cons_of_pos (by simpa using blank), ← skipBlanks] at visible
  rw [visible, List.length_cons] at shorter
  omega

/-- A text is the blanks in front of it and what is left when they are skipped. -/
theorem exists_gap (text : List Char) : ∃ gap, Blanks gap ∧ text = gap ++ skipBlanks text :=
  ⟨text.takeWhile isBlank, fun _ member => List.mem_takeWhile_imp member,
    List.takeWhile_append_dropWhile.symm⟩

/-- What cannot continue a number. -/
def EndsNumber (rest : List Char) : Prop :=
  ∀ character ∈ rest.head?, character.isDigit = false ∧ character ≠ '.'

/-- What can stand behind a term: past blanks, a sign or nothing. -/
def EndsTerm (rest : List Char) : Prop :=
  ∀ character ∈ (skipBlanks rest).head?, character = '+' ∨ character = '-'

theorem endsNumber_of_skipBlanks {rest : List Char}
    (visible : ∀ character ∈ (skipBlanks rest).head?, character.isDigit = false ∧ character ≠ '.') :
    EndsNumber rest := by
  intro character head
  cases rest with
  | nil => cases head
  | cons first others =>
    cases head
    by_cases blank : isBlank character = true
    · refine ⟨?_, ?_⟩
      · by_contra digit
        rw [isBlank_of_isDigit (by simpa using digit)] at blank
        cases blank
      · rintro rfl
        exact absurd blank (by decide)
    · refine visible character ?_
      rw [skipBlanks_cons (by simpa using blank)]
      rfl

theorem EndsTerm.endsNumber {rest : List Char} (ends : EndsTerm rest) : EndsNumber rest := by
  apply endsNumber_of_skipBlanks
  intro character head
  rcases ends character head with rfl | rfl <;> decide

theorem takeWhile_digits {digits rest : List Char} (isDigits : Digits digits)
    (ends : EndsNumber rest) : (digits ++ rest).takeWhile Char.isDigit = digits := by
  rw [List.takeWhile_append_of_pos isDigits.2]
  cases rest with
  | nil => simp
  | cons first others =>
    rw [List.takeWhile_cons_of_neg (by simp [(ends first rfl).1]), List.append_nil]

theorem dropWhile_digits {digits rest : List Char} (isDigits : Digits digits)
    (ends : EndsNumber rest) : (digits ++ rest).dropWhile Char.isDigit = rest := by
  rw [List.dropWhile_append_of_pos isDigits.2]
  cases rest with
  | nil => rfl
  | cons first others => rw [List.dropWhile_cons_of_neg (by simp [(ends first rfl).1])]

theorem startsWithDigit_append {digits : List Char} (isDigits : Digits digits)
    (rest : List Char) : startsWithDigit (digits ++ rest) = true := by
  obtain ⟨nonempty, all⟩ := isDigits
  cases digits with
  | nil => exact absurd rfl nonempty
  | cons first others => exact all first List.mem_cons_self

/-- The digits at the front of a text that begins with one. -/
theorem digits_takeWhile {text : List Char} (starts : startsWithDigit text = true) :
    Digits (text.takeWhile Char.isDigit) := by
  refine ⟨?_, fun _ member => List.mem_takeWhile_imp member⟩
  cases text with
  | nil => cases starts
  | cons first others =>
    have digit : first.isDigit = true := starts
    rw [List.takeWhile_cons_of_pos digit]
    exact List.cons_ne_nil _ _

/-! ## From the grammar to the scanner -/

theorem scanFraction_of_endsNumber {rest : List Char} (ends : EndsNumber rest) :
    scanFraction rest = .ok ([], rest) := by
  simp only [scanFraction]
  split
  · exact absurd rfl (ends '.' rfl).2
  · rfl

theorem scanFraction_append {fraction rest : List Char} (isFraction : Digits fraction)
    (ends : EndsNumber rest) : scanFraction ('.' :: (fraction ++ rest)) = .ok (fraction, rest) := by
  simp only [scanFraction, startsWithDigit_append isFraction, if_true,
    takeWhile_digits isFraction ends, dropWhile_digits isFraction ends]

theorem scanNumeral_append {text rest : List Char} {numeral : Numeral}
    (isNumber : SpellsNumber text numeral) (fits : numeral.value.isFinite = true)
    (ends : EndsNumber rest) : scanNumeral (text ++ rest) = .ok (numeral, rest) := by
  simp only [scanNumeral]
  cases isNumber with
  | whole isWhole =>
    rw [dropWhile_digits isWhole ends, scanFraction_of_endsNumber ends]
    simp only [takeWhile_digits isWhole ends, fits, if_true]
  | @pointed whole fraction isWhole isFraction =>
    -- The digits before the point stop at the point, not at what stands behind the number.
    have taken : (whole ++ '.' :: (fraction ++ rest)).takeWhile Char.isDigit = whole := by
      rw [List.takeWhile_append_of_pos isWhole.2, List.takeWhile_cons_of_neg (by decide),
        List.append_nil]
    have dropped : (whole ++ '.' :: (fraction ++ rest)).dropWhile Char.isDigit =
        '.' :: (fraction ++ rest) := by
      rw [List.dropWhile_append_of_pos isWhole.2, List.dropWhile_cons_of_neg (by decide)]
    rw [List.append_assoc, List.cons_append, dropped, scanFraction_append isFraction ends]
    simp only [taken, fits, if_true]

theorem scanPower_append {digits rest : List Char} (isExponent : Digits digits)
    (fits : digitsValue digits < UInt32.size) (ends : EndsNumber rest) :
    scanPower (digits ++ rest) = .ok (UInt32.ofNat (digitsValue digits), rest) := by
  have noFraction : startsWithFraction rest = false := by
    simp only [startsWithFraction]
    split
    · exact absurd rfl (ends '.' rfl).2
    · rfl
  have inRange : ¬ exponentLimit ≤ digitsValue digits := Nat.not_le.mpr fits
  simp only [scanPower, startsWithDigit_append isExponent, takeWhile_digits isExponent ends,
    dropWhile_digits isExponent ends, noFraction, inRange, Bool.not_true, Bool.false_eq_true,
    if_false]

/-- The power of a body that the grammar derives, as a word. -/
def powerWord (exponent : Option (List Char)) : Option UInt32 :=
  exponent.map fun digits => UInt32.ofNat (digitsValue digits)

/-- The body that a spelling is scanned as. -/
def Spelling.body : Spelling → Body
  | .number numeral => .number numeral
  | .multiple numeral exponent => .multiple numeral (powerWord exponent)
  | .power exponent => .variable (powerWord exponent)

theorem scanExponent_of_endsTerm {rest : List Char} (ends : EndsTerm rest) :
    scanExponent rest = .ok (none, skipBlanks rest) := by
  simp only [scanExponent]
  split
  · rename_i after found
    rcases ends '^' (by rw [found]; rfl) with same | same <;> cases same
  · rfl

/-- What stands behind the unknown in a spelled power is scanned as its exponent. -/
theorem scanExponent_append {unknown : Char} {behind rest : List Char}
    {exponent : Option (List Char)} (isPower : SpellsPower (unknown :: behind) exponent)
    (fits : exponentValue exponent < UInt32.size) (ends : EndsTerm rest) :
    ∃ left, scanExponent (behind ++ rest) = .ok (powerWord exponent, left) ∧
      skipBlanks left = skipBlanks rest := by
  cases isPower with
  | bare isUnknown =>
    exact ⟨_, scanExponent_of_endsTerm ends, skipBlanks_skipBlanks rest⟩
  | @raised _ before after digits isUnknown blanksBefore blanksAfter isExponent =>
    have visible : isBlank '^' = false := by decide
    have digit : skipBlanks (digits ++ rest) = digits ++ rest := by
      have starts := startsWithDigit_append isExponent rest
      cases found : digits ++ rest with
      | nil => rw [found] at starts; cases starts
      | cons first others =>
        rw [found] at starts
        exact skipBlanks_cons (isBlank_of_isDigit starts) others
    refine ⟨rest, ?_, rfl⟩
    simp only [scanExponent, List.append_assoc, List.cons_append,
      skipBlanks_append blanksBefore, skipBlanks_cons visible, skipBlanks_append blanksAfter, digit,
      scanPower_append isExponent fits ends.endsNumber]
    rfl

theorem SpellsPower.exists_unknown {text : List Char} {exponent : Option (List Char)}
    (isPower : SpellsPower text exponent) :
    ∃ unknown behind, text = unknown :: behind ∧ isVariable unknown = true := by
  cases isPower with
  | bare isUnknown => exact ⟨_, _, rfl, isUnknown⟩
  | raised isUnknown => exact ⟨_, _, rfl, isUnknown⟩

theorem isVariable_cases {character : Char} (isUnknown : isVariable character = true) :
    character = 'x' ∨ character = 'X' := by
  simpa [isVariable] using isUnknown

theorem scanMultiple_append {before after power rest : List Char} {numeral : Numeral}
    {exponent : Option (List Char)} (blanksBefore : Blanks before) (blanksAfter : Blanks after)
    (isPower : SpellsPower power exponent) (fits : exponentValue exponent < UInt32.size)
    (ends : EndsTerm rest) :
    ∃ left, scanMultiple numeral (before ++ '*' :: (after ++ (power ++ rest))) =
        .ok (.multiple numeral (powerWord exponent), left) ∧
      skipBlanks left = skipBlanks rest := by
  obtain ⟨unknown, behind, rfl, isUnknown⟩ := isPower.exists_unknown
  obtain ⟨left, scanned, same⟩ := scanExponent_append isPower fits ends
  have visibleSign : isBlank '*' = false := by decide
  have visible : isBlank unknown = false := by
    rcases isVariable_cases isUnknown with rfl | rfl <;> decide
  refine ⟨left, ?_, same⟩
  simp only [scanMultiple, skipBlanks_append blanksBefore, skipBlanks_cons visibleSign,
    skipBlanks_append blanksAfter, List.cons_append, skipBlanks_cons visible, scanVariable,
    isUnknown, if_true, scanned]
  rfl

theorem scanMultiple_of_endsTerm {rest : List Char} (numeral : Numeral) (ends : EndsTerm rest) :
    scanMultiple numeral rest = .ok (.number numeral, skipBlanks rest) := by
  simp only [scanMultiple]
  split
  · rename_i after found
    rcases ends '*' (by rw [found]; rfl) with same | same <;> cases same
  · rfl

theorem SpellsNumber.exists_digit {text : List Char} {numeral : Numeral}
    (isNumber : SpellsNumber text numeral) :
    ∃ first behind, text = first :: behind ∧ first.isDigit = true := by
  have starts : startsWithDigit text = true := by
    cases isNumber with
    | whole isWhole => simpa using startsWithDigit_append isWhole []
    | pointed isWhole => exact startsWithDigit_append isWhole _
  cases text with
  | nil => cases starts
  | cons first behind => exact ⟨first, behind, rfl, starts⟩

/-- **A spelled body is scanned as what it spells**, whatever stands behind it. -/
theorem scanBody_append {text rest : List Char} {spelling : Spelling}
    (isBody : SpellsBody text spelling) (finite : spelling.magnitude.isFinite = true)
    (small : spelling.exponent < UInt32.size) (ends : EndsTerm rest) :
    ∃ left, scanBody (text ++ rest) = .ok (spelling.body, left) ∧
      skipBlanks left = skipBlanks rest := by
  cases isBody with
  | number isNumber =>
    obtain ⟨first, behind, rfl, digit⟩ := isNumber.exists_digit
    refine ⟨skipBlanks rest, ?_, skipBlanks_skipBlanks rest⟩
    have scanned := scanNumeral_append isNumber finite ends.endsNumber
    rw [List.cons_append] at scanned ⊢
    simp only [scanBody, digit, if_true, scanned, scanMultiple_of_endsTerm _ ends, Spelling.body]
  | @multiple text before after power numeral exponent isNumber blanksBefore blanksAfter isPower =>
    obtain ⟨first, behind, rfl, digit⟩ := isNumber.exists_digit
    obtain ⟨left, multiple, same⟩ :=
      @scanMultiple_append before after power rest numeral exponent blanksBefore blanksAfter isPower
        small ends
    have ending : EndsNumber (before ++ '*' :: (after ++ (power ++ rest))) := by
      apply endsNumber_of_skipBlanks
      intro character head
      rw [skipBlanks_append blanksBefore, skipBlanks_cons (by decide)] at head
      cases head
      decide
    refine ⟨left, ?_, same⟩
    have scanned := scanNumeral_append isNumber finite ending
    simp only [List.append_assoc, List.cons_append] at scanned ⊢
    simp only [scanBody, digit, if_true, scanned, multiple, Spelling.body]
  | power isPower =>
    obtain ⟨unknown, behind, rfl, isUnknown⟩ := isPower.exists_unknown
    obtain ⟨left, scanned, same⟩ := scanExponent_append isPower small ends
    have notDigit : unknown.isDigit = false := by
      rcases isVariable_cases isUnknown with rfl | rfl <;> decide
    refine ⟨left, ?_, same⟩
    simp only [List.cons_append, scanBody, notDigit, Bool.false_eq_true, if_false, isUnknown,
      if_true, scanned, Spelling.body]
    rfl

/-- A body begins with a character that is neither a blank nor a sign. -/
theorem SpellsBody.exists_first {text : List Char} {spelling : Spelling}
    (isBody : SpellsBody text spelling) :
    ∃ first behind, text = first :: behind ∧ isBlank first = false ∧ first ≠ '+' ∧ first ≠ '-' := by
  have ofDigit : ∀ {first : Char}, first.isDigit = true →
      isBlank first = false ∧ first ≠ '+' ∧ first ≠ '-' := by
    intro first digit
    refine ⟨isBlank_of_isDigit digit, ?_, ?_⟩ <;>
      (rintro rfl; exact absurd digit (by decide))
  have ofUnknown : ∀ {first : Char}, isVariable first = true →
      isBlank first = false ∧ first ≠ '+' ∧ first ≠ '-' := by
    intro first isUnknown
    rcases isVariable_cases isUnknown with rfl | rfl <;> decide
  cases isBody with
  | number isNumber =>
    obtain ⟨first, behind, rfl, digit⟩ := isNumber.exists_digit
    exact ⟨first, behind, rfl, ofDigit digit⟩
  | multiple isNumber _ _ _ =>
    obtain ⟨first, behind, rfl, digit⟩ := isNumber.exists_digit
    exact ⟨first, _, rfl, ofDigit digit⟩
  | power isPower =>
    obtain ⟨unknown, behind, rfl, isUnknown⟩ := isPower.exists_unknown
    exact ⟨unknown, behind, rfl, ofUnknown isUnknown⟩

theorem SpellsBody.skipBlanks_append {text : List Char} {spelling : Spelling}
    (isBody : SpellsBody text spelling) (rest : List Char) :
    skipBlanks (text ++ rest) = text ++ rest := by
  obtain ⟨first, behind, rfl, visible, -⟩ := isBody.exists_first
  exact skipBlanks_cons visible _

theorem scanSign_cons (isFirst : Bool) (character : Char) (text : List Char) :
    scanSign isFirst (character :: text) =
      if character = '+' then .ok (false, skipBlanks text)
      else if character = '-' then .ok (true, skipBlanks text)
      else if isFirst then .ok (false, character :: text)
      else .error (.flawed .unseparated (character :: text)) := by
  simp only [scanSign]
  split <;> simp_all

theorem scanSign_append {sign text rest : List Char} {negative : Bool} {spelling : Spelling}
    (isFirst : Bool) (isSign : SpellsSign sign negative) (isBody : SpellsBody text spelling) :
    scanSign isFirst (sign ++ (text ++ rest)) = .ok (negative, text ++ rest) := by
  cases isSign with
  | plus blanksAfter =>
    rw [List.cons_append, scanSign, Equation.skipBlanks_append blanksAfter,
      isBody.skipBlanks_append]
  | minus blanksAfter =>
    rw [List.cons_append, scanSign, Equation.skipBlanks_append blanksAfter,
      isBody.skipBlanks_append]

theorem scanSign_unsigned {text rest : List Char} {spelling : Spelling}
    (isBody : SpellsBody text spelling) :
    scanSign true (text ++ rest) = .ok (false, text ++ rest) := by
  obtain ⟨first, behind, rfl, -, notPlus, notMinus⟩ := isBody.exists_first
  simp only [scanSign]
  split
  · rename_i same
    cases same
    exact absurd rfl notPlus
  · rename_i same
    cases same
    exact absurd rfl notMinus
  · rfl

/-! ## Scanning step by step -/

/-- What a scan finds behind its first token. -/
theorem scan_of_not_blank (isFirst : Bool) {text : List Char} (some : skipBlanks text ≠ []) :
    scan isFirst text =
      match scanTerm isFirst (skipBlanks text) with
      | .error fault => ⟨[], .some fault⟩
      | .ok (token, rest) => ⟨token :: (scan false rest).tokens, (scan false rest).fault⟩ := by
  rw [scan, if_neg some]
  split
  · rename_i fault failed
    rw [failed]
  · rename_i token rest scanned
    simp only [scanned]

theorem scan_of_scanTerm {isFirst : Bool} {text rest : List Char} {token : Token}
    (some : skipBlanks text ≠ [])
    (scanned : scanTerm isFirst (skipBlanks text) = .ok (token, rest)) :
    scan isFirst text = ⟨token :: (scan false rest).tokens, (scan false rest).fault⟩ := by
  rw [scan_of_not_blank isFirst some, scanned]

theorem scan_of_fault {isFirst : Bool} {text : List Char} {fault : Fault}
    (some : skipBlanks text ≠ [])
    (failed : scanTerm isFirst (skipBlanks text) = .error fault) :
    scan isFirst text = ⟨[], .some fault⟩ := by
  rw [scan_of_not_blank isFirst some, failed]

theorem scan_of_blanks (isFirst : Bool) {text : List Char} (none : skipBlanks text = []) :
    scan isFirst text = ⟨[], .none⟩ := by
  rw [scan, if_pos none]

/-- A scan takes no notice of blanks in front. -/
theorem scan_congr {text other : List Char} (isFirst : Bool)
    (same : skipBlanks text = skipBlanks other) : scan isFirst text = scan isFirst other := by
  by_cases none : skipBlanks text = []
  · rw [scan_of_blanks _ none, scan_of_blanks _ (same ▸ none)]
  · cases scanned : scanTerm isFirst (skipBlanks text) with
    | error fault => rw [scan_of_fault none scanned, scan_of_fault (same ▸ none) (same ▸ scanned)]
    | ok result =>
      exact (scan_of_scanTerm none scanned).trans
        (scan_of_scanTerm (same ▸ none) (same ▸ scanned)).symm

theorem skipBlanks_eq_nil_iff {text : List Char} : skipBlanks text = [] ↔ Blanks text := by
  simp [skipBlanks, Blanks]

/-! ## Sentences are scanned -/

theorem SpellsSign.skipBlanks_append {sign : List Char} {negative : Bool}
    (isSign : SpellsSign sign negative) (rest : List Char) :
    skipBlanks (sign ++ rest) = sign ++ rest := by
  cases isSign <;> exact skipBlanks_cons (by decide) _

theorem SpellsSign.ne_nil {sign : List Char} {negative : Bool}
    (isSign : SpellsSign sign negative) : sign ≠ [] := by
  cases isSign <;> exact List.cons_ne_nil _ _

theorem SpellsLater.endsTerm {text : List Char} {phrases : List Phrase}
    (isLater : SpellsLater text phrases) : EndsTerm text := by
  intro character head
  cases isLater with
  | done isBlank =>
    rw [skipBlanks_eq_nil_iff.mpr isBlank] at head
    cases head
  | more blanksBefore isSign isBody isLater =>
    rw [Equation.skipBlanks_append blanksBefore, isSign.skipBlanks_append] at head
    cases isSign with
    | plus => exact .inl (Option.mem_some.mp head).symm
    | minus => exact .inr (Option.mem_some.mp head).symm

/-- The term of a scanned body is the meaning of its phrase. -/
theorem term_spelling (negative : Bool) (spelling : Spelling) (slice : List Char) :
    Token.term ⟨negative, spelling.body, slice⟩ = Phrase.term ⟨negative, spelling⟩ := by
  cases spelling with
  | number numeral => rfl
  | multiple numeral exponent => cases exponent <;> rfl
  | power exponent => cases exponent <;> rfl

/-- A term is scanned from a sign that was accepted and a body behind it. -/
theorem scanTerm_append {isFirst negative : Bool} {text body later : List Char}
    {spelling : Spelling} {phrases : List Phrase}
    (signScanned : scanSign isFirst text = .ok (negative, body ++ later))
    (isBody : SpellsBody body spelling) (fits : Phrase.Fits ⟨negative, spelling⟩)
    (isLater : SpellsLater later phrases) :
    ∃ token left, scanTerm isFirst text = .ok (token, left) ∧
      token.term = Phrase.term ⟨negative, spelling⟩ ∧ skipBlanks left = skipBlanks later := by
  obtain ⟨left, scanned, same⟩ := scanBody_append isBody fits.1 fits.2 isLater.endsTerm
  refine ⟨⟨negative, spelling.body, text.take (text.length - left.length)⟩, left, ?_,
    term_spelling _ _ _, same⟩
  simp only [scanTerm, signScanned, scanned]
  rfl

/-- A scan without a fault that means the given terms. -/
def Scans (isFirst : Bool) (text : List Char) (terms : List Term) : Prop :=
  (scan isFirst text).fault = none ∧ (scan isFirst text).tokens.map Token.term = terms

theorem scans_cons {isFirst negative : Bool} {text body later : List Char} {spelling : Spelling}
    {phrases : List Phrase} (some : skipBlanks text ≠ [])
    (signScanned : scanSign isFirst (skipBlanks text) = .ok (negative, body ++ later))
    (isBody : SpellsBody body spelling) (fits : Phrase.Fits ⟨negative, spelling⟩)
    (isLater : SpellsLater later phrases)
    (laterScans : Scans false later (phrases.map Phrase.term)) :
    Scans isFirst text ((⟨negative, spelling⟩ :: phrases).map Phrase.term) := by
  obtain ⟨token, left, scanned, meaning, same⟩ := scanTerm_append signScanned isBody fits isLater
  obtain ⟨noFault, terms⟩ := laterScans
  rw [Scans, scan_of_scanTerm some scanned, scan_congr false same]
  exact ⟨noFault, by rw [List.map_cons, List.map_cons, meaning, terms]⟩

theorem scans_signed {before sign body later : List Char} {negative : Bool} {spelling : Spelling}
    {phrases : List Phrase} (isFirst : Bool) (blanksBefore : Blanks before)
    (isSign : SpellsSign sign negative) (isBody : SpellsBody body spelling)
    (fits : Phrase.Fits ⟨negative, spelling⟩) (isLater : SpellsLater later phrases)
    (laterScans : Scans false later (phrases.map Phrase.term)) :
    skipBlanks (before ++ (sign ++ (body ++ later))) ≠ [] ∧
      Scans isFirst (before ++ (sign ++ (body ++ later)))
        ((⟨negative, spelling⟩ :: phrases).map Phrase.term) := by
  have skipped : skipBlanks (before ++ (sign ++ (body ++ later))) = sign ++ (body ++ later) := by
    rw [Equation.skipBlanks_append blanksBefore, isSign.skipBlanks_append]
  have some : skipBlanks (before ++ (sign ++ (body ++ later))) ≠ [] := by
    rw [skipped]
    exact List.append_ne_nil_of_left_ne_nil isSign.ne_nil _
  refine ⟨some, scans_cons some ?_ isBody fits isLater laterScans⟩
  rw [skipped]
  exact scanSign_append isFirst isSign isBody

theorem SpellsLater.scans {text : List Char} {phrases : List Phrase}
    (isLater : SpellsLater text phrases) (fits : ∀ phrase ∈ phrases, phrase.Fits) :
    Scans false text (phrases.map Phrase.term) := by
  induction isLater with
  | done isBlank =>
    rw [Scans, scan_of_blanks false (skipBlanks_eq_nil_iff.mpr isBlank)]
    exact ⟨rfl, rfl⟩
  | more blanksBefore isSign isBody isLater ih =>
    obtain ⟨fitsFirst, fitsLater⟩ := List.forall_mem_cons.mp fits
    exact (scans_signed false blanksBefore isSign isBody fitsFirst isLater (ih fitsLater)).2

/-- **A sentence that fits is scanned without a fault, term by term.** -/
theorem SpellsSide.scans {text : List Char} {phrases : List Phrase}
    (isSide : SpellsSide text phrases) (fits : ∀ phrase ∈ phrases, phrase.Fits) :
    skipBlanks text ≠ [] ∧ Scans true text (phrases.map Phrase.term) := by
  obtain ⟨phrase, later, rfl⟩ := List.exists_cons_of_ne_nil isSide.ne_nil
  obtain ⟨fitsFirst, fitsLater⟩ := List.forall_mem_cons.mp fits
  cases isSide with
  | signed blanksBefore isSign isBody isLater =>
    exact scans_signed true blanksBefore isSign isBody fitsFirst isLater (isLater.scans fitsLater)
  | @unsigned before body behind _ _ blanksBefore isBody isLater =>
    have skipped : skipBlanks (before ++ (body ++ behind)) = body ++ behind := by
      rw [Equation.skipBlanks_append blanksBefore, isBody.skipBlanks_append]
    have some : skipBlanks (before ++ (body ++ behind)) ≠ [] := by
      obtain ⟨first, others, rfl, -⟩ := isBody.exists_first
      rw [skipped]
      exact List.cons_ne_nil _ _
    refine ⟨some, scans_cons some ?_ isBody fitsFirst isLater (isLater.scans fitsLater)⟩
    rw [skipped]
    exact scanSign_unsigned isBody

/-! ## What is scanned is a sentence -/

/-- The digits in front, and what is scanned as the fraction behind them, are spelled
as a number. -/
theorem spellsNumber_of_scanFraction {text fraction rest : List Char}
    (starts : startsWithDigit text = true)
    (scanned : scanFraction (text.dropWhile Char.isDigit) = .ok (fraction, rest)) :
    ∃ spelled, text = spelled ++ rest ∧
      SpellsNumber spelled ⟨text.takeWhile Char.isDigit, fraction⟩ := by
  have whole := digits_takeWhile starts
  have whole_append : text = text.takeWhile Char.isDigit ++ text.dropWhile Char.isDigit :=
    List.takeWhile_append_dropWhile.symm
  unfold scanFraction at scanned
  split at scanned
  · rename_i after point
    split at scanned
    · rename_i startsFraction
      cases scanned
      refine ⟨_, ?_, .pointed whole (digits_takeWhile startsFraction)⟩
      rw [List.append_assoc, List.cons_append, List.takeWhile_append_dropWhile, ← point]
      exact whole_append
    · cases scanned
  · cases scanned
    exact ⟨_, whole_append, .whole whole⟩

theorem spellsNumber_of_scanNumeral {text rest : List Char} {numeral : Numeral}
    (starts : startsWithDigit text = true) (scanned : scanNumeral text = .ok (numeral, rest)) :
    ∃ spelled, text = spelled ++ rest ∧ SpellsNumber spelled numeral ∧
      numeral.value.isFinite = true := by
  unfold scanNumeral at scanned
  split at scanned
  · cases scanned
  · rename_i fraction behind fractionScanned
    dsimp only at scanned
    split at scanned
    · rename_i finite
      cases scanned
      obtain ⟨spelled, text_eq, isNumber⟩ := spellsNumber_of_scanFraction starts fractionScanned
      exact ⟨spelled, text_eq, isNumber, finite⟩
    · cases scanned

theorem exists_of_scanVariable {text rest : List Char} (scanned : scanVariable text = .ok rest) :
    ∃ unknown, text = unknown :: rest ∧ isVariable unknown = true := by
  unfold scanVariable at scanned
  split at scanned
  · split at scanned
    · rename_i unknown _ isUnknown
      cases scanned
      exact ⟨unknown, rfl, isUnknown⟩
    · cases scanned
  · cases scanned

theorem digits_of_scanPower {text rest : List Char} {power : UInt32}
    (scanned : scanPower text = .ok (power, rest)) :
    ∃ digits, text = digits ++ rest ∧ Digits digits ∧ digitsValue digits < UInt32.size ∧
      power = UInt32.ofNat (digitsValue digits) := by
  unfold scanPower at scanned
  dsimp only at scanned
  split at scanned
  · cases scanned
  · rename_i starts
    split at scanned
    · cases scanned
    · split at scanned
      · cases scanned
      · rename_i small
        cases scanned
        exact ⟨_, List.takeWhile_append_dropWhile.symm, digits_takeWhile (by simpa using starts),
          Nat.not_le.mp small, rfl⟩

/-- The characters taken off behind the unknown complete a spelled power, but for
blanks. -/
theorem spellsPower_of_scanExponent {unknown : Char} {text rest : List Char}
    {power : Option UInt32} (isUnknown : isVariable unknown = true)
    (scanned : scanExponent text = .ok (power, rest)) :
    ∃ behind gap exponent, text = behind ++ (gap ++ rest) ∧ Blanks gap ∧
      SpellsPower (unknown :: behind) exponent ∧ exponentValue exponent < UInt32.size ∧
        power = powerWord exponent := by
  obtain ⟨before, blanksBefore, text_eq⟩ := exists_gap text
  unfold scanExponent at scanned
  split at scanned
  · rename_i after found
    cases powerScanned : scanPower (skipBlanks after) with
    | error fault => rw [powerScanned] at scanned; cases scanned
    | ok result =>
      obtain ⟨word, left⟩ := result
      rw [powerScanned] at scanned
      cases scanned
      obtain ⟨digits, digits_eq, isExponent, small, rfl⟩ := digits_of_scanPower powerScanned
      obtain ⟨gap, blanksAfter, after_eq⟩ := exists_gap after
      refine ⟨before ++ '^' :: (gap ++ digits), [], some digits, ?_, Blanks.nil,
        .raised isUnknown blanksBefore blanksAfter isExponent, small, rfl⟩
      rw [text_eq, found, after_eq, digits_eq]
      simp
  · cases scanned
    exact ⟨[], before, none, text_eq, blanksBefore, .bare isUnknown, by decide, rfl⟩

theorem isFinite_one : (1 : Binary64).isFinite = true := by
  decide +kernel

theorem spellsBody_of_scanMultiple {number text rest : List Char} {numeral : Numeral} {body : Body}
    (isNumber : SpellsNumber number numeral) (finite : numeral.value.isFinite = true)
    (scanned : scanMultiple numeral text = .ok (body, rest)) :
    ∃ behind gap spelling, text = behind ++ (gap ++ rest) ∧ Blanks gap ∧
      SpellsBody (number ++ behind) spelling ∧ Phrase.Fits ⟨false, spelling⟩ ∧
        body = spelling.body := by
  obtain ⟨before, blanksBefore, text_eq⟩ := exists_gap text
  unfold scanMultiple at scanned
  split at scanned
  · rename_i after found
    obtain ⟨between, blanksAfter, after_eq⟩ := exists_gap after
    cases variableScanned : scanVariable (skipBlanks after) with
    | error fault => rw [variableScanned] at scanned; cases scanned
    | ok behind =>
      obtain ⟨unknown, unknown_eq, isUnknown⟩ := exists_of_scanVariable variableScanned
      cases exponentScanned : scanExponent behind with
      | error fault =>
        simp only [variableScanned, exponentScanned] at scanned
        cases scanned
      | ok result =>
        simp only [variableScanned, exponentScanned] at scanned
        cases scanned
        obtain ⟨spelled, gap, exponent, rfl, isGap, isPower, small, word⟩ :=
          spellsPower_of_scanExponent isUnknown exponentScanned
        refine ⟨before ++ '*' :: (between ++ unknown :: spelled), gap, .multiple numeral exponent,
          ?_, isGap, .multiple isNumber blanksBefore blanksAfter isPower, ⟨finite, small⟩,
          congrArg _ word⟩
        rw [text_eq, found, after_eq, unknown_eq]
        simp
  · cases scanned
    have small : (Spelling.number numeral).exponent < UInt32.size := Nat.two_pow_pos 32
    refine ⟨[], before, .number numeral, text_eq, blanksBefore, ?_, ⟨finite, small⟩, rfl⟩
    rw [List.append_nil]
    exact .number isNumber

/-- **What is scanned as a body is spelled**, but for blanks behind it. -/
theorem spellsBody_of_scanBody {text rest : List Char} {body : Body}
    (scanned : scanBody text = .ok (body, rest)) :
    ∃ spelled gap spelling, text = spelled ++ (gap ++ rest) ∧ Blanks gap ∧
      SpellsBody spelled spelling ∧ Phrase.Fits ⟨false, spelling⟩ ∧ body = spelling.body := by
  unfold scanBody at scanned
  split at scanned
  · cases scanned
  · rename_i first behind
    split at scanned
    · rename_i digit
      have starts : startsWithDigit (first :: behind) = true := digit
      cases numeralScanned : scanNumeral (first :: behind) with
      | error fault => rw [numeralScanned] at scanned; cases scanned
      | ok result =>
        rw [numeralScanned] at scanned
        obtain ⟨number, text_eq, isNumber, finite⟩ :=
          spellsNumber_of_scanNumeral starts numeralScanned
        obtain ⟨spelled, gap, spelling, rest_eq, isGap, isBody, fits, same⟩ :=
          spellsBody_of_scanMultiple isNumber finite scanned
        refine ⟨number ++ spelled, gap, spelling, ?_, isGap, isBody, fits, same⟩
        rw [text_eq, rest_eq, List.append_assoc]
    · split at scanned
      · rename_i isUnknown
        cases exponentScanned : scanExponent behind with
        | error fault => rw [exponentScanned] at scanned; cases scanned
        | ok result =>
          rw [exponentScanned] at scanned
          cases scanned
          obtain ⟨spelled, gap, exponent, text_eq, isGap, isPower, small, word⟩ :=
            spellsPower_of_scanExponent isUnknown exponentScanned
          refine ⟨first :: spelled, gap, .power exponent, ?_, isGap, .power isPower,
            ⟨isFinite_one, small⟩, congrArg _ word⟩
          rw [text_eq, List.cons_append]
      · cases scanned

/-- The sign of a term is spelled, unless it is the first one and has none. -/
theorem exists_of_scanSign {isFirst negative : Bool} {text unsigned : List Char}
    (scanned : scanSign isFirst text = .ok (negative, unsigned)) :
    ∃ sign, text = sign ++ unsigned ∧
      (SpellsSign sign negative ∨ (isFirst = true ∧ sign = [] ∧ negative = false)) := by
  unfold scanSign at scanned
  split at scanned
  · rename_i after
    cases scanned
    obtain ⟨blanks, isBlanks, after_eq⟩ := exists_gap after
    exact ⟨'+' :: blanks, congrArg _ after_eq, .inl (.plus isBlanks)⟩
  · rename_i after
    cases scanned
    obtain ⟨blanks, isBlanks, after_eq⟩ := exists_gap after
    exact ⟨'-' :: blanks, congrArg _ after_eq, .inl (.minus isBlanks)⟩
  · split at scanned
    · rename_i first
      cases scanned
      exact ⟨[], rfl, .inr ⟨first, rfl, rfl⟩⟩
    · cases scanned

/-- A term is scanned as a sign, which the first one may lack, and a body. -/
theorem exists_of_scanTerm {isFirst : Bool} {text rest : List Char} {token : Token}
    (scanned : scanTerm isFirst text = .ok (token, rest)) :
    ∃ sign spelled gap negative spelling, text = sign ++ (spelled ++ (gap ++ rest)) ∧
      (SpellsSign sign negative ∨ (isFirst = true ∧ sign = [] ∧ negative = false)) ∧
      Blanks gap ∧ SpellsBody spelled spelling ∧ Phrase.Fits ⟨negative, spelling⟩ ∧
      token.term = Phrase.term ⟨negative, spelling⟩ := by
  cases signScanned : scanSign isFirst text with
  | error fault => rw [scanTerm, signScanned] at scanned; cases scanned
  | ok signResult =>
    obtain ⟨negative, unsigned⟩ := signResult
    cases bodyScanned : scanBody unsigned with
    | error fault =>
      simp only [scanTerm, signScanned, bodyScanned] at scanned
      cases scanned
    | ok bodyResult =>
      obtain ⟨body, left⟩ := bodyResult
      simp only [scanTerm, signScanned, bodyScanned] at scanned
      cases scanned
      obtain ⟨spelled, gap, spelling, unsigned_eq, isGap, isBody, fits, rfl⟩ :=
        spellsBody_of_scanBody bodyScanned
      obtain ⟨sign, text_eq, isSign⟩ := exists_of_scanSign signScanned
      refine ⟨sign, spelled, gap, negative, spelling, ?_, isSign, isGap, isBody, fits,
        term_spelling _ _ _⟩
      rw [text_eq, unsigned_eq]

/-- The terms scanned behind the first one are spelled. -/
theorem spellsLater_of_scans (text : List Char) :
    ∀ {terms : List Term}, Scans false text terms →
      ∃ phrases, SpellsLater text phrases ∧ (∀ phrase ∈ phrases, phrase.Fits) ∧
        terms = phrases.map Phrase.term := by
  -- Every term takes characters off the text, so the induction is on its length.
  induction length : text.length using Nat.strong_induction_on generalizing text with
  | _ size ih =>
    subst length
    intro terms scans
    by_cases none : skipBlanks text = []
    · obtain ⟨-, terms_eq⟩ := scans
      rw [scan_of_blanks false none] at terms_eq
      subst terms_eq
      refine ⟨[], .done (skipBlanks_eq_nil_iff.mp none), ?_, rfl⟩
      intro phrase member
      cases member
    · cases scanned : scanTerm false (skipBlanks text) with
      | error fault =>
        obtain ⟨noFault, -⟩ := scans
        rw [scan_of_fault none scanned] at noFault
        cases noFault
      | ok result =>
        obtain ⟨token, rest⟩ := result
        rw [Scans, scan_of_scanTerm none scanned] at scans
        obtain ⟨noFault, rfl⟩ := scans
        have shorter : rest.length < text.length :=
          (length_of_scanTerm scanned).trans_le (Text.length_skipBlanks_le text)
        obtain ⟨phrases, isLater, fits, terms_eq⟩ := ih _ shorter rest rfl ⟨noFault, rfl⟩
        obtain ⟨sign, spelled, gap, negative, spelling, skipped, isSign | ⟨absurdly, -⟩, isGap,
          isBody, fitsFirst, meaning⟩ := exists_of_scanTerm scanned
        · obtain ⟨before, blanksBefore, text_eq⟩ := exists_gap text
          refine ⟨⟨negative, spelling⟩ :: phrases, ?_, List.forall_mem_cons.mpr ⟨fitsFirst, fits⟩,
            ?_⟩
          · rw [text_eq, skipped]
            exact .more blanksBefore isSign isBody (isLater.blanks_append isGap)
          · rw [List.map_cons, List.map_cons, meaning, terms_eq]
        · cases absurdly

/-- **A side that is scanned without a fault is a sentence that fits.** -/
theorem spellsSide_of_scans {text : List Char} {terms : List Term}
    (some : skipBlanks text ≠ []) (scans : Scans true text terms) :
    ∃ phrases, SpellsSide text phrases ∧ (∀ phrase ∈ phrases, phrase.Fits) ∧
      terms = phrases.map Phrase.term := by
  cases scanned : scanTerm true (skipBlanks text) with
  | error fault =>
    obtain ⟨noFault, -⟩ := scans
    rw [scan_of_fault some scanned] at noFault
    cases noFault
  | ok result =>
    obtain ⟨token, rest⟩ := result
    rw [Scans, scan_of_scanTerm some scanned] at scans
    obtain ⟨noFault, rfl⟩ := scans
    obtain ⟨phrases, isLater, fits, terms_eq⟩ := spellsLater_of_scans rest ⟨noFault, rfl⟩
    obtain ⟨sign, spelled, gap, negative, spelling, skipped, isSign, isGap, isBody, fitsFirst,
      meaning⟩ := exists_of_scanTerm scanned
    obtain ⟨before, blanksBefore, text_eq⟩ := exists_gap text
    refine ⟨⟨negative, spelling⟩ :: phrases, ?_, List.forall_mem_cons.mpr ⟨fitsFirst, fits⟩, ?_⟩
    · rw [text_eq, skipped]
      rcases isSign with isSign | ⟨-, rfl, rfl⟩
      · exact .signed blanksBefore isSign isBody (isLater.blanks_append isGap)
      · rw [List.nil_append]
        exact .unsigned blanksBefore isBody (isLater.blanks_append isGap)
    · rw [List.map_cons, List.map_cons, meaning, terms_eq]

end Quadratics.Equation
