import Quadratics.Proofs.Equation.CursorScanner
import Quadratics.Proofs.Equation.Reading

/-!
# Reading by byte positions keeps its promises

Each function of the scanner of bytes does at the place of an end of the side what
the scanning function does with that end: it stops for the same reasons, and moves to
the place of the same rest (`located`).  So every
cursor is the place of an end, no slice is off a boundary, and what is cut out is
what the grammar calls a number.  The reader of bytes therefore never comes to a
breach, and reads what the reader reads (`read_eq`).
-/

namespace Quadratics.Equation.Cursor

set_option autoImplicit false

open Text (isBlank skipBlanks)

/-! ## Places of what is scanned -/

/-- What a scanning function returns, with places for ends of the side. -/
def located {α : Type} (side : List Char) (scanned : Except Fault (α × List Char)) :
    Except Halt (α × Nat) :=
  match scanned with
  | .error fault => .error (.refused (fault.reason side))
  | .ok (value, rest) => .ok (value, place side rest)

section Places

variable {side text : List Char}

theorem unexpected_place {α : Type} (suffix : text <:+ side) :
    unexpected (α := α) side (place side text) =
      .error (.refused ((Equation.unexpected text).reason side)) := by
  rw [unexpected, peek_place suffix]
  cases text <;> rfl

theorem skip_place (suffix : text <:+ side) :
    skip side (place side text) = .ok (place side (skipBlanks text)) :=
  skipWhile_place isBlank suffix

theorem suffix_skipBlanks (suffix : text <:+ side) : skipBlanks text <:+ side :=
  (List.dropWhile_suffix isBlank).trans suffix

theorem skipNext_place {character : Char} (suffix : character :: text <:+ side) :
    skipNext side (place side (character :: text)) = .ok (place side (skipBlanks text)) := by
  rw [skipNext, advance_place suffix]
  exact skip_place (suffix_of_cons suffix)

theorem sign_place (isFirst : Bool) (suffix : text <:+ side) :
    sign side (!isFirst) (place side text) = located side (scanSign isFirst text) := by
  simp only [sign]
  rw [peek_place suffix]
  cases text with
  | nil => cases isFirst <;> rfl
  | cons character text =>
    rw [scanSign_cons]
    by_cases plus : character = '+'
    · subst plus
      simp only [List.getElem?_cons_zero, bind, Except.bind, if_true, skipNext_place suffix]
      rfl
    · by_cases minus : character = '-'
      · subst minus
        simp only [List.getElem?_cons_zero, bind, Except.bind, skipNext_place suffix]
        rfl
      · simp only [List.getElem?_cons_zero, bind, Except.bind, Option.some.injEq, plus, minus,
          if_false]
        cases isFirst <;> rfl

theorem suffix_dropWhile (keep : Char → Bool) (suffix : text <:+ side) :
    text.dropWhile keep <:+ side :=
  (List.dropWhile_suffix keep).trans suffix

theorem any_isDigit_getElem?_zero (text : List Char) :
    text[0]?.any Char.isDigit = startsWithDigit text := by
  cases text <;> rfl

theorem scanFraction_cons (character : Char) (text : List Char) :
    scanFraction (character :: text) =
      if character = '.' then
        if startsWithDigit text then
          .ok (text.takeWhile Char.isDigit, text.dropWhile Char.isDigit)
        else .error (Equation.unexpected text)
      else .ok ([], character :: text) := by
  simp only [scanFraction]
  split <;> simp_all

/-- A fraction ends where scanning ends it. -/
theorem fractionEnd_place (suffix : text <:+ side) :
    fractionEnd side (place side text) = (located side (scanFraction text)).map Prod.snd := by
  simp only [fractionEnd]
  rw [peek_place suffix]
  cases text with
  | nil => rfl
  | cons character text =>
    rw [scanFraction_cons]
    by_cases point : character = '.'
    · subst point
      have behind := suffix_of_cons suffix
      simp only [bind, Except.bind, List.getElem?_cons_zero, if_true, peekSecond_place suffix,
        advance_place suffix, List.getElem?_cons_succ, any_isDigit_getElem?_zero]
      split
      · simp only [takeWhile_place Char.isDigit behind]
        rfl
      · rw [unexpected_place behind]
        rfl
    · simp only [bind, Except.bind, List.getElem?_cons_zero, Option.some.injEq, point, if_false]
      rfl

/-- The characters of a numeral. -/
def numeralText (numeral : Numeral) : List Char :=
  if numeral.fraction = [] then numeral.whole else numeral.whole ++ '.' :: numeral.fraction

theorem numeralText_of_spells {spelled : List Char} {numeral : Numeral}
    (isNumber : SpellsNumber spelled numeral) : numeralText numeral = spelled := by
  cases isNumber with
  | whole isWhole => rfl
  | pointed isWhole isFraction => exact if_neg isFraction.1

/-- **What is spelled as a number can be read as one.** -/
theorem numeralValue?_of_spells {spelled : List Char} {numeral : Numeral}
    (isNumber : SpellsNumber spelled numeral) :
    numeralValue? spelled = some numeral.value := by
  simp only [numeralValue?]
  cases isNumber with
  | whole isWhole =>
    have ends : EndsNumber [] := by
      intro character head
      cases head
    have taken := takeWhile_digits isWhole ends
    have dropped := dropWhile_digits isWhole ends
    rw [List.append_nil] at taken dropped
    simp only [taken, dropped, isWhole.1, if_false]
  | @pointed whole fraction isWhole isFraction =>
    have taken : (whole ++ '.' :: fraction).takeWhile Char.isDigit = whole := by
      rw [List.takeWhile_append_of_pos isWhole.2, List.takeWhile_cons_of_neg (by decide),
        List.append_nil]
    have dropped : (whole ++ '.' :: fraction).dropWhile Char.isDigit = '.' :: fraction := by
      rw [List.dropWhile_append_of_pos isWhole.2, List.dropWhile_cons_of_neg (by decide)]
    have allDigits : fraction.all Char.isDigit = true := List.all_eq_true.mpr isFraction.2
    simp only [taken, dropped, allDigits, isWhole.1, isFraction.1, ne_eq, not_false_eq_true,
      and_self, if_true]

/-- **A number is cut out of the side where it is scanned, and can be read again.** -/
theorem number_place (starts : startsWithDigit text = true) (suffix : text <:+ side) :
    number side (place side text) =
      located side ((scanNumeral text).map fun (numeral, rest) => (numeralText numeral, rest)) := by
  simp only [number, scanNumeral]
  simp only [takeWhile_place Char.isDigit suffix,
    fractionEnd_place (suffix_dropWhile Char.isDigit suffix), bind, Except.bind]
  cases scanned : scanFraction (text.dropWhile Char.isDigit) with
  | error fault => rfl
  | ok result =>
    obtain ⟨fraction, rest⟩ := result
    obtain ⟨spelled, text_eq, isNumber⟩ := spellsNumber_of_scanFraction starts scanned
    have cut : slice side (place side text) (place side rest) = .ok spelled := by
      rw [text_eq] at suffix ⊢
      exact slice_place suffix
    simp only [located, Except.map, cut, numeralValue?_of_spells isNumber]
    split
    · rw [← numeralText_of_spells isNumber]
      rfl
    · rfl

/-! ## Variables and exponents -/

theorem unknown_place (suffix : text <:+ side) :
    unknown side (place side text) =
      (located side ((scanVariable text).map fun rest => ((), rest))).map Prod.snd := by
  simp only [unknown, scanVariable]
  rw [peek_place suffix]
  cases text with
  | nil => rfl
  | cons character text =>
    simp only [bind, Except.bind, List.getElem?_cons_zero, Option.any_some]
    split
    · rw [advance_place suffix]
      rfl
    · rfl

theorem fractionFollows_place (suffix : text <:+ side) :
    fractionFollows side (place side text) = .ok (startsWithFraction text) := by
  simp only [fractionFollows]
  rw [peek_place suffix]
  cases text with
  | nil => rfl
  | cons character text =>
    have fraction : startsWithFraction (character :: text) =
        if character = '.' then startsWithDigit text else false := by
      simp only [startsWithFraction]
      split <;> simp_all
    rw [fraction]
    by_cases point : character = '.'
    · simp only [bind, Except.bind, List.getElem?_cons_zero, point, if_true,
        peekSecond_place (point ▸ suffix), List.getElem?_cons_succ, any_isDigit_getElem?_zero]
      rfl
    · simp only [bind, Except.bind, List.getElem?_cons_zero, Option.some.injEq, point, if_false]
      rfl

theorem takeWhile_isDigit_eq_nil_iff (text : List Char) :
    text.takeWhile Char.isDigit = [] ↔ startsWithDigit text = false := by
  cases text with
  | nil => exact iff_of_true rfl rfl
  | cons character text =>
    by_cases digit : character.isDigit = true
    · rw [List.takeWhile_cons_of_pos digit]
      apply iff_of_false (List.cons_ne_nil _ _)
      intro notDigit
      rw [startsWithDigit, digit] at notDigit
      cases notDigit
    · rw [List.takeWhile_cons_of_neg digit]
      exact iff_of_true rfl (Bool.not_eq_true _ ▸ digit)

theorem power_place (suffix : text <:+ side) :
    power side (place side text) = located side (scanPower text) := by
  simp only [power, scanPower]
  simp only [takeWhile_place Char.isDigit suffix, bind, Except.bind]
  by_cases starts : startsWithDigit text = true
  · have some : ¬ text.takeWhile Char.isDigit = [] := by
      rw [takeWhile_isDigit_eq_nil_iff, starts]
      exact Bool.false_ne_true.symm
    simp only [some, if_false, fractionFollows_place (suffix_dropWhile Char.isDigit suffix),
      starts, Bool.not_true, Bool.false_eq_true]
    split
    · rfl
    · split <;> rfl
  · have notDigit : startsWithDigit text = false := Bool.not_eq_true _ ▸ starts
    have none := (takeWhile_isDigit_eq_nil_iff text).mpr notDigit
    simp only [none, if_true, notDigit, Bool.not_false]
    rfl

theorem exists_cons_of_head {character : Char} (first : text[0]? = some character) :
    ∃ rest, text = character :: rest := by
  cases text with
  | nil => cases first
  | cons head rest =>
    cases first
    exact ⟨rest, rfl⟩

theorem scanExponent_eq (text : List Char) :
    scanExponent text =
      if (skipBlanks text)[0]? = some '^' then
        (scanPower (skipBlanks (skipBlanks text).tail)).map fun (power, rest) => (some power, rest)
      else .ok (none, skipBlanks text) := by
  simp only [scanExponent]
  split
  · rename_i rest found
    rw [found]
    rfl
  · rename_i other
    rw [if_neg]
    intro caret
    obtain ⟨rest, found⟩ := exists_cons_of_head caret
    exact other rest found

theorem exponent_place (suffix : text <:+ side) :
    exponent side (place side text) = located side (scanExponent text) := by
  have skipped := suffix_skipBlanks suffix
  unfold exponent
  rw [scanExponent_eq]
  simp only [skip_place suffix, peek_place skipped, bind, Except.bind]
  split
  · rename_i caret
    obtain ⟨rest, found⟩ := exists_cons_of_head caret
    rw [found] at skipped
    simp only [found, skipNext_place skipped, List.tail_cons,
      power_place (suffix_skipBlanks (suffix_of_cons skipped))]
    cases scanPower (skipBlanks rest) <;> rfl
  · rfl

/-! ## Bodies -/

/-- The parts of the token that a body is cut out as. -/
def partsOf (body : Body) : Parts :=
  match body with
  | .number numeral => ⟨.number, some (numeralText numeral), none⟩
  | .multiple numeral (some power) => ⟨.multiplePower, some (numeralText numeral), some power⟩
  | .multiple numeral none => ⟨.multiple, some (numeralText numeral), none⟩
  | .variable (some power) => ⟨.variablePower, none, some power⟩
  | .variable none => ⟨.variable, none, none⟩

theorem scanMultiple_eq (numeral : Numeral) (text : List Char) :
    scanMultiple numeral text =
      if (skipBlanks text)[0]? = some '*' then
        match scanVariable (skipBlanks (skipBlanks text).tail) with
        | .error fault => .error fault
        | .ok rest =>
            (scanExponent rest).map fun (power, rest) => (.multiple numeral power, rest)
      else .ok (.number numeral, skipBlanks text) := by
  simp only [scanMultiple]
  split
  · rename_i rest found
    rw [found]
    rfl
  · rename_i other
    rw [if_neg]
    intro star
    obtain ⟨rest, found⟩ := exists_cons_of_head star
    exact other rest found

theorem multiple_place (numeral : Numeral) (suffix : text <:+ side) :
    multiple side (numeralText numeral) (place side text) =
      located side ((scanMultiple numeral text).map fun (body, rest) => (partsOf body, rest)) := by
  have skipped := suffix_skipBlanks suffix
  simp only [multiple]
  rw [scanMultiple_eq]
  simp only [skip_place suffix, peek_place skipped, bind, Except.bind]
  split
  · rename_i star
    obtain ⟨rest, found⟩ := exists_cons_of_head star
    rw [found] at skipped
    have behind := suffix_skipBlanks (suffix_of_cons skipped)
    simp only [found, skipNext_place skipped, List.tail_cons, unknown_place behind]
    cases variableScanned : scanVariable (skipBlanks rest) with
    | error fault => rfl
    | ok after =>
      obtain ⟨character, after_eq, -⟩ := exists_of_scanVariable variableScanned
      rw [after_eq] at behind
      simp only [located, Except.map, exponent_place (suffix_of_cons behind)]
      cases scanExponent after with
      | error fault => rfl
      | ok result =>
        obtain ⟨power, stop⟩ := result
        cases power <;> rfl
  · rfl

theorem body_place (suffix : text <:+ side) :
    body side (place side text) =
      located side ((scanBody text).map fun (body, rest) => (partsOf body, rest)) := by
  simp only [body, scanBody]
  rw [peek_place suffix]
  cases text with
  | nil =>
    simp only [bind, Except.bind, List.getElem?_nil, Option.any_none, Bool.false_eq_true, if_false,
      unexpected_place suffix]
    rfl
  | cons character text =>
    simp only [bind, Except.bind, List.getElem?_cons_zero, Option.any_some]
    split
    · rename_i digit
      have starts : startsWithDigit (character :: text) = true := digit
      rw [number_place starts suffix]
      cases scanned : scanNumeral (character :: text) with
      | error fault => rfl
      | ok result =>
        obtain ⟨numeral, rest⟩ := result
        obtain ⟨spelled, text_eq, -, -⟩ := spellsNumber_of_scanNumeral starts scanned
        rw [text_eq] at suffix
        exact multiple_place numeral (suffix_of_append suffix)
    · split
      · simp only [advance_place suffix, exponent_place (suffix_of_cons suffix)]
        cases scanExponent text with
        | error fault => rfl
        | ok result =>
          obtain ⟨power, stop⟩ := result
          cases power <;> rfl
      · rw [unexpected_place suffix]
        rfl

/-! ## Tokens -/

theorem token_place (isFirst : Bool) (suffix : text <:+ side) :
    token side (!isFirst) (place side text) =
      located side ((scanTerm isFirst text).map fun (scanned, rest) =>
        (⟨place side text, place side rest, scanned.negative, partsOf scanned.body⟩, rest)) := by
  simp only [token, scanTerm]
  rw [sign_place isFirst suffix]
  cases signScanned : scanSign isFirst text with
  | error fault => rfl
  | ok signResult =>
    obtain ⟨negative, unsigned⟩ := signResult
    have unsignedSuffix : unsigned <:+ side := by
      obtain ⟨sign, text_eq, -⟩ := exists_of_scanSign signScanned
      rw [text_eq] at suffix
      exact suffix_of_append suffix
    simp only [located, bind, Except.bind, body_place unsignedSuffix]
    cases scanBody unsigned with
    | error fault => rfl
    | ok result => rfl

/-- A coefficient that is cut out where a number is spelled can be read again. -/
theorem magnitude_of_spells {spelled : List Char} {numeral : Numeral} {parts : Parts}
    (isNumber : SpellsNumber spelled numeral)
    (coefficient : parts.coefficient = some (numeralText numeral)) :
    parts.magnitude = .ok numeral.value := by
  simp only [Parts.magnitude]
  rw [coefficient, numeralText_of_spells isNumber]
  simp only [numeralValue?_of_spells isNumber]

/-- The parts of a spelled body mean what the body does. -/
theorem parts_of_spells {spelled : List Char} {spelling : Spelling}
    (isBody : SpellsBody spelled spelling) :
    (partsOf spelling.body).magnitude = .ok spelling.body.magnitude ∧
      (partsOf spelling.body).exponent = .ok spelling.body.power := by
  cases isBody with
  | number isNumber => exact ⟨magnitude_of_spells isNumber rfl, rfl⟩
  | @multiple _ _ _ _ _ exponent isNumber blanksBefore blanksAfter isPower =>
    cases exponent <;> exact ⟨magnitude_of_spells isNumber rfl, rfl⟩
  | @power _ exponent isPower => cases exponent <;> exact ⟨rfl, rfl⟩

/-- **The term of a token is that of the scanned one.** -/
theorem term_of_scanTerm {isFirst : Bool} {rest : List Char} {found : Equation.Token}
    (scanned : scanTerm isFirst text = .ok (found, rest)) (start stop : Nat) :
    Token.term ⟨start, stop, found.negative, partsOf found.body⟩ = .ok found.term := by
  unfold scanTerm at scanned
  cases signScanned : scanSign isFirst text with
  | error fault =>
    rw [signScanned] at scanned
    cases scanned
  | ok signResult =>
    obtain ⟨negative, unsigned⟩ := signResult
    cases bodyScanned : scanBody unsigned with
    | error fault =>
      simp only [signScanned, bodyScanned] at scanned
      cases scanned
    | ok bodyResult =>
      obtain ⟨scannedBody, behind⟩ := bodyResult
      simp only [signScanned, bodyScanned] at scanned
      cases scanned
      obtain ⟨_, _, spelling, -, -, isBody, -, rfl⟩ := spellsBody_of_scanBody bodyScanned
      obtain ⟨magnitude, exponent⟩ := parts_of_spells isBody
      rw [Token.term, magnitude, exponent]
      rfl

/-! ## Sides -/

/-- The text of a token stands in front of what is left after it. -/
theorem exists_cut {isFirst : Bool} {found : Equation.Token} {rest : List Char}
    (scanned : scanTerm isFirst text = .ok (found, rest)) : ∃ front, text = front ++ rest := by
  obtain ⟨sign, spelled, gap, _, _, rfl, -⟩ := exists_of_scanTerm scanned
  refine ⟨sign ++ (spelled ++ gap), ?_⟩
  simp only [List.append_assoc]

/-- **The terms of a side are those scanned, up to the same fault.** -/
theorem terms_place (isFirst : Bool) (suffix : text <:+ side) :
    terms side (!isFirst) (place side text) =
      match (scan isFirst text).fault with
      | some fault => .error (.refused (fault.reason side))
      | none => .ok ((scan isFirst text).tokens.map Equation.Token.term) := by
  induction length : text.length using Nat.strong_induction_on generalizing text isFirst with
  | _ size ih =>
    subst length
    have skipped := suffix_skipBlanks suffix
    unfold terms
    simp only [skip_place suffix, peek_place skipped, bind, Except.bind]
    by_cases none : skipBlanks text = []
    · rw [scan_of_blanks isFirst none, none]
      rfl
    · obtain ⟨character, visible, visible_eq⟩ := List.exists_cons_of_ne_nil none
      have some : (skipBlanks text)[0]? = some character := by
        rw [visible_eq]
        rfl
      rw [some]
      simp only [token_place isFirst skipped]
      cases scanned : scanTerm isFirst (skipBlanks text) with
      | error fault =>
        rw [scan_of_fault none scanned]
        rfl
      | ok result =>
        obtain ⟨found, rest⟩ := result
        rw [scan_of_scanTerm none scanned]
        obtain ⟨front, apart⟩ := exists_cut scanned
        have inner : rest <:+ text := by
          apply List.IsSuffix.trans _ (List.dropWhile_suffix isBlank)
          exact ⟨front, apart.symm⟩
        have shorter : rest.length < text.length :=
          (length_of_scanTerm scanned).trans_le (Text.length_skipBlanks_le text)
        have cut : slice side (place side (skipBlanks text)) (place side rest) = .ok front := by
          rw [apart] at skipped ⊢
          exact slice_place skipped
        have forward := place_lt suffix inner shorter
        have later := ih rest.length shorter false (inner.trans suffix) rfl
        simp only [Bool.not_false] at later
        simp only [located, Except.map, cut, term_of_scanTerm scanned, forward,
          place_le side rest, and_self, if_true, later]
        cases (scan false rest).fault <;> rfl

end Places

theorem skipBlanks_reverse_eq_nil_iff {text : List Char} :
    skipBlanks text.reverse = [] ↔ Blanks text := by
  rw [skipBlanks_eq_nil_iff]
  simp [Blanks]

/-- A side is blank when nothing is left of it without the blanks at its ends. -/
theorem trim_eq_nil_iff {text : List Char} : Text.trim text = [] ↔ skipBlanks text = [] := by
  rw [Text.trim, List.reverse_eq_nil_iff, skipBlanks_reverse_eq_nil_iff, ← skipBlanks_eq_nil_iff,
    skipBlanks_skipBlanks]

/-- A side is read as it is by its rests. -/
theorem readSide_eq (side : List Char) : readSide side = .ok (Equation.readSide side) := by
  have scanned := terms_place true (List.suffix_refl side)
  rw [place_self] at scanned
  simp only [readSide, Equation.readSide]
  simp only [trim_eq_nil_iff]
  split
  · rfl
  · simp only [Bool.not_true] at scanned
    rw [scanned]
    cases (scan true side).fault <;> rfl

/-! ## Equations -/

theorem findEquals_append {left : List Char} (noEquals : '=' ∉ left) (right : List Char) :
    findEquals (left ++ '=' :: right) = some (byteLength left) := by
  induction left with
  | nil => rfl
  | cons character left ih =>
    obtain ⟨different, noLater⟩ := not_or.mp (mt List.mem_cons.mpr noEquals)
    rw [List.cons_append, findEquals, if_neg (Ne.symm different), ih noLater]
    rfl

/-- Accepting an equation groups its terms without a breach. -/
theorem accept_eq (source : List Char) (equation : Equation) :
    accept source equation =
      .ok (match equation.objection with
        | some reason => .error (.citing source reason)
        | none => .ok equation) := by
  have same : objection equation.reduce = equation.objection := rfl
  simp only [accept]
  rw [Grouping.run_eq]
  simp only [same]
  cases equation.objection <;> rfl

/-- **The reader of bytes never comes to a breach, and reads what the reader does.** -/
theorem read_eq (source : List Char) : read source = .ok (readCharacters source) := by
  simp only [read, readCharacters]
  by_cases once : source.count '=' = 1
  · obtain ⟨left, right, rfl, noLeft, noRight⟩ := count_equals_eq_one_iff.mp once
    have leftCut := @slice_place (left ++ '=' :: right) left ('=' :: right) (List.suffix_refl _)
    have rightPlace := @place_of_cons (left ++ '=' :: right) right '='
      (List.suffix_append left ('=' :: right))
    have rightCut := @textFrom_place (left ++ '=' :: right) right
      (suffix_of_cons (List.suffix_append left ('=' :: right)))
    have oneByte : '='.utf8Size = 1 := by decide
    rw [place_self, place_append] at leftCut
    rw [rightPlace, place_append, oneByte] at rightCut
    simp only [once, ne_eq, not_true_eq_false, if_false, findEquals_append noLeft,
      bind, Except.bind, leftCut, rightCut, readSide_eq, readSides, leftSide_append noLeft,
      rightSide_append noLeft]
    cases Equation.readSide left with
    | error refusal => rfl
    | ok leftTerms =>
      cases Equation.readSide right with
      | error refusal => rfl
      | ok rightTerms => exact accept_eq _ _
  · simp only [once, ne_eq, not_false_eq_true, if_true]
    rfl

end Quadratics.Equation.Cursor
