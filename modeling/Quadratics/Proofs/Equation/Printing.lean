import Quadratics.Equation.Printer
import Quadratics.Proofs.Decimal.Shortest
import Quadratics.Proofs.Equation.Reading

/-!
# What is printed is a sentence

The text of a finite number is a number of the grammar, with a minus sign in front
if need be, and its numeral has the value of the number (`exists_numeral`).  So the
text of a side whose values are finite is a sentence of the grammar.  It is read as
the terms it was printed from (`readSide_sideText`), but for two things: the first
term loses the sign of a zero, because its sign is in its number, and a side without
terms is read as zero.
-/

namespace Quadratics.Equation

set_option autoImplicit false

open Binary64 (Alike)

/-! ## Numbers -/

theorem digits_append_zeros (value zeros : Nat) :
    Digits (Decimal.digits value ++ List.replicate zeros '0') := by
  constructor
  · simp [Decimal.digits_ne_nil]
  · intro character member
    rcases List.mem_append.mp member with digit | zero
    · exact Decimal.isDigit_of_mem_digits digit
    · rw [List.eq_of_mem_replicate zero]
      rfl

/-- **A decimal is written as a numeral of its value**, with as many digits behind the point as
its last place is behind it. -/
theorem exists_numeral_positional (coefficient : Nat) (place : Int) :
    ∃ numeral, SpellsNumber (Decimal.positional coefficient place) numeral ∧
      numeral.fraction.length = (-place).toNat ∧
      numeral.value = Decimal.nearest ⟨false, coefficient, place⟩ := by
  match place with
  | .ofNat zeros =>
    refine ⟨⟨Decimal.digits coefficient ++ List.replicate zeros '0', []⟩,
      .whole (digits_append_zeros coefficient zeros), ?_, ?_⟩
    · exact (Int.toNat_of_nonpos (Int.neg_nonpos_of_nonneg (Int.natCast_nonneg zeros))).symm
    · rw [Numeral.value, List.append_nil, digitsValue, Decimal.ofDigitChars_zeros]
      exact Decimal.nearest_zeros false coefficient zeros
  | .negSucc places =>
    have long := Decimal.length_paddedDigits (places + 2) coefficient
    have isDigit := fun character =>
      @Decimal.isDigit_of_mem_paddedDigits (places + 2) coefficient character
    have written := Decimal.ofDigitChars_paddedDigits (places + 2) coefficient
    rw [Decimal.positional]
    generalize Decimal.paddedDigits (places + 2) coefficient = padded at long isDigit written ⊢
    have fractionLength : (padded.drop (padded.length - (places + 1))).length = places + 1 := by
      rw [List.length_drop]
      omega
    refine ⟨⟨padded.take (padded.length - (places + 1)),
      padded.drop (padded.length - (places + 1))⟩, .pointed ⟨?_, ?_⟩ ⟨?_, ?_⟩, fractionLength, ?_⟩
    · intro none
      have empty := congrArg List.length none
      rw [List.length_take, List.length_nil] at empty
      omega
    · intro character member
      exact isDigit character (List.mem_of_mem_take member)
    · intro none
      rw [none, List.length_nil] at fractionLength
      omega
    · intro character member
      exact isDigit character (List.mem_of_mem_drop member)
    · rw [Numeral.value, List.take_append_drop, digitsValue, written, fractionLength]
      rfl

/-- The characters of a finite number: a minus sign if it has one, and a numeral of
its distance from zero. -/
theorem exists_numeral {number : Binary64} (finite : number.isFinite = true) :
    ∃ written numeral, SpellsNumber written numeral ∧
      number.text.toList = (if number.negative then ['-'] else []) ++ written ∧
      numeral.fraction.length = (-(Decimal.shortest number).place).toNat ∧
      numeral.value = if number.negative then -number else number := by
  obtain ⟨numeral, isNumber, length, value⟩ := exists_numeral_positional
    (Decimal.shortest number).coefficient (Decimal.shortest number).place
  have negative := Decimal.negative_shortest finite
  have same := Decimal.nearest_shortest finite
  refine ⟨_, numeral, isNumber, ?_, length, ?_⟩
  · rw [Decimal.text_eq_characters finite, String.toList_ofList, Decimal.characters, negative]
    cases number.negative <;> rfl
  · rw [value]
    generalize Decimal.shortest number = decimal at negative same
    obtain ⟨sign, coefficient, place⟩ := decimal
    change sign = number.negative at negative
    cases sign with
    | false =>
      rw [← negative]
      exact same
    | true =>
      rw [← negative, if_pos rfl, ← same, Decimal.neg_nearest]
      rfl

/-! ## Terms -/

/-- The characters of an exponent. -/
theorem digits_exponent (power : UInt32) : Digits (toString power.toNat).toList := by
  rw [Nat.toString_eq_repr, Nat.toList_repr]
  exact ⟨Nat.toDigits_ne_nil, fun _ => Nat.isDigit_of_mem_toDigits (by decide) (by decide)⟩

theorem digitsValue_exponent (power : UInt32) :
    digitsValue (toString power.toNat).toList = power.toNat := by
  rw [Nat.toString_eq_repr, Nat.toList_repr]
  exact Nat.ofDigitChars_ten_toDigits

/-- A number in front of a power of the unknown. -/
theorem spellsBody_power {written : List Char} {numeral : Numeral} (power : UInt32)
    (isNumber : SpellsNumber written numeral) :
    SpellsBody (written ++ " * x^".toList ++ (toString power.toNat).toList)
      (.multiple numeral (some (toString power.toNat).toList)) := by
  have isPower := @SpellsPower.raised 'x' [] [] _ rfl .nil .nil (digits_exponent power)
  have isBody := SpellsBody.multiple isNumber .space .space isPower
  rw [List.append_assoc]
  exact isBody

/-- The phrase of a number and a power of the unknown. -/
theorem phrase_power {negative : Bool} {numeral : Numeral} (power : UInt32)
    (finite : numeral.value.isFinite = true) :
    Phrase.Fits ⟨negative, .multiple numeral (some (toString power.toNat).toList)⟩ ∧
      Phrase.term ⟨negative, .multiple numeral (some (toString power.toNat).toList)⟩ =
        ⟨if negative then -numeral.value else numeral.value, power⟩ := by
  have exponent : exponentValue (some (toString power.toNat).toList) = power.toNat :=
    digitsValue_exponent power
  refine ⟨⟨finite, exponent.trans_lt power.toNat_lt⟩, ?_⟩
  · have word : UInt32.ofNat (exponentValue (some (toString power.toNat).toList)) = power := by
      rw [exponent, UInt32.ofNat_toNat]
    exact congrArg _ word

/-- A zero to which zero is added loses its sign, and nothing else changes. -/
theorem add_zero_of_not_negative {value : Binary64} (unsigned : value.negative = false) :
    value + 0 = value := by
  by_cases vanishes : value.Vanishes
  · obtain ⟨sumVanishes, negative⟩ := Binary64.add_zeros vanishes Binary64.vanishes_zero
    apply Binary64.eq_of_magnitude_eq sumVanishes.1 vanishes.1
    · rw [negative, unsigned, Bool.false_and]
    · rw [sumVanishes.2, vanishes.2]
  · exact Binary64.add_of_vanishes Binary64.vanishes_zero vanishes

/-- The characters of a term: those of its number without the sign of a zero, and of
its power. -/
theorem toList_text (term : Term) :
    term.text.toList =
      (term.value + 0).text.toList ++ " * x^".toList ++ (toString term.power.toNat).toList := by
  rw [Term.text, String.toList_append, String.toList_append]

/-- The text of a term is a sign, where there is one, and a body. -/
theorem exists_body {term : Term} (finite : term.value.isFinite = true) :
    ∃ body spelling, SpellsBody body spelling ∧
      term.text.toList = (if (term.value + 0).negative then ['-'] else []) ++ body ∧
      Phrase.Fits ⟨(term.value + 0).negative, spelling⟩ ∧
      Phrase.term ⟨(term.value + 0).negative, spelling⟩ = ⟨term.value + 0, term.power⟩ := by
  have sumFinite : (term.value + 0).isFinite = true :=
    (Binary64.alike_add_zero term.value).isFinite_eq.trans finite
  obtain ⟨written, numeral, isNumber, text, -, value⟩ := exists_numeral sumFinite
  have numeralFinite : numeral.value.isFinite = true := by
    rw [value]
    split
    · rw [Binary64.isFinite_neg, sumFinite]
    · exact sumFinite
  obtain ⟨fits, meaning⟩ :=
    @phrase_power (term.value + 0).negative numeral term.power numeralFinite
  refine ⟨_, _, spellsBody_power term.power isNumber, ?_, fits, ?_⟩
  · rw [toList_text, text]
    simp only [List.append_assoc]
  · rw [meaning, value]
    cases (term.value + 0).negative
    · rfl
    · simp

/-! ## Sides -/

/-- The terms that a printed side is read as: the first term without the sign of a
zero, and zero for a side without terms. -/
def printed : List Term → List Term
  | [] => [⟨0, 0⟩]
  | first :: later => ⟨first.value + 0, first.power⟩ :: later

/-- The characters of the terms behind the first one. -/
def laterCharacters (terms : List Term) : List Char :=
  terms.flatMap fun term => (laterText term).toList

theorem laterCharacters_cons (term : Term) (terms : List Term) :
    laterCharacters (term :: terms) = (laterText term).toList ++ laterCharacters terms :=
  List.flatMap_cons

theorem toList_sideText (first : Term) (later : List Term) :
    (sideText (first :: later)).toList = first.text.toList ++ laterCharacters later := by
  have folded : ∀ (terms : List Term) (text : String),
      (terms.foldl (fun text term => text ++ laterText term) text).toList =
        text.toList ++ laterCharacters terms := by
    intro terms
    induction terms with
    | nil =>
      intro text
      exact (List.append_nil _).symm
    | cons term terms ih =>
      intro text
      rw [List.foldl_cons, ih, String.toList_append, List.append_assoc, laterCharacters_cons]
  exact folded later first.text

/-- A later term is its sign between blanks, and a body. -/
theorem exists_later {term : Term} (finite : term.value.isFinite = true) :
    ∃ sign body spelling, SpellsSign sign term.value.negative ∧ SpellsBody body spelling ∧
      (laterText term).toList = [' '] ++ (sign ++ body) ∧
      Phrase.Fits ⟨term.value.negative, spelling⟩ ∧
      Phrase.term ⟨term.value.negative, spelling⟩ = term := by
  simp only [laterText]
  cases negative : term.value.negative with
  | true =>
    have unsigned : term.neg.value.negative = false := by
      show (-term.value).negative = false
      rw [Binary64.negative_neg, negative]
      rfl
    have negFinite : term.neg.value.isFinite = true := (Binary64.isFinite_neg _).trans finite
    obtain ⟨body, spelling, isBody, text, fits, meaning⟩ := exists_body negFinite
    rw [add_zero_of_not_negative unsigned, unsigned] at text fits meaning
    refine ⟨['-', ' '], body, spelling, .minus .space, isBody, ?_, fits, ?_⟩
    · rw [if_pos rfl, String.toList_append, text]
      rfl
    · have value := congrArg Term.value meaning
      have power := congrArg Term.power meaning
      obtain ⟨_, _⟩ := term
      change spelling.magnitude = -_ at value
      change UInt32.ofNat spelling.exponent = _ at power
      rw [Phrase.term, if_pos rfl, value, power, Binary64.neg_neg]
      rfl
  | false =>
    obtain ⟨body, spelling, isBody, text, fits, meaning⟩ := exists_body finite
    rw [add_zero_of_not_negative negative, negative] at text fits meaning
    refine ⟨['+', ' '], body, spelling, .plus .space, isBody, ?_, fits, meaning⟩
    rw [if_neg Bool.false_ne_true, String.toList_append, text]
    rfl

/-- Later terms of finite value are printed as a sentence, whatever blanks follow. -/
theorem exists_spellsLater {terms : List Term} {gap : List Char} (isGap : Blanks gap)
    (finite : ∀ term ∈ terms, term.value.isFinite = true) :
    ∃ phrases, SpellsLater (laterCharacters terms ++ gap) phrases ∧
      (∀ phrase ∈ phrases, phrase.Fits) ∧ phrases.map Phrase.term = terms := by
  induction terms with
  | nil => exact ⟨[], .done isGap, fun _ member => absurd member List.not_mem_nil, rfl⟩
  | cons term terms ih =>
    obtain ⟨termFinite, laterFinite⟩ := List.forall_mem_cons.mp finite
    obtain ⟨phrases, isLater, fits, meaning⟩ := ih laterFinite
    obtain ⟨sign, body, spelling, isSign, isBody, text, phraseFits, phraseMeaning⟩ :=
      exists_later termFinite
    refine ⟨⟨term.value.negative, spelling⟩ :: phrases, ?_,
      List.forall_mem_cons.mpr ⟨phraseFits, fits⟩, ?_⟩
    · have spelled := SpellsLater.more .space isSign isBody isLater
      rw [laterCharacters_cons, text]
      simpa only [List.append_assoc] using spelled
    · rw [List.map_cons, phraseMeaning, meaning]

theorem digits_zero : Digits ['0'] :=
  .singleton (by decide)

theorem value_zero : Numeral.value ⟨['0'], []⟩ = 0 := by
  decide

/-- One zero is spelled in one way. -/
theorem eq_zero_of_spells {numeral : Numeral} (isNumber : SpellsNumber ['0'] numeral) :
    numeral = ⟨['0'], []⟩ := by
  generalize spelled : ['0'] = digits at isNumber
  cases isNumber with
  | whole _ => rfl
  | pointed _ _ =>
    have point : '.' ∈ ['0'] := spelled ▸ List.mem_append_right _ List.mem_cons_self
    cases List.mem_singleton.mp point

/-- The phrase of the numeral zero. -/
theorem phrase_zero :
    Phrase.Fits ⟨false, .number ⟨['0'], []⟩⟩ ∧
      Phrase.term ⟨false, .number ⟨['0'], []⟩⟩ = ⟨0, 0⟩ := by
  have magnitude : Spelling.magnitude (.number ⟨['0'], []⟩) = 0 := value_zero
  have exponent : Spelling.exponent (.number ⟨['0'], []⟩) = 0 := rfl
  constructor
  · refine ⟨?_, ?_⟩
    · rw [magnitude]
      exact Binary64.vanishes_zero.1
    · rw [exponent]
      exact (by decide : 0 < UInt32.size)
  · rw [Phrase.term, if_neg Bool.false_ne_true, magnitude, exponent]
    rfl

/-- **A side of finite values is printed as a sentence of the grammar.** -/
theorem exists_spellsSide {terms : List Term} {before after : List Char}
    (blanksBefore : Blanks before) (blanksAfter : Blanks after)
    (finite : ∀ term ∈ terms, term.value.isFinite = true) :
    ∃ phrases, SpellsSide (before ++ ((sideText terms).toList ++ after)) phrases ∧
      (∀ phrase ∈ phrases, phrase.Fits) ∧ phrases.map Phrase.term = printed terms := by
  match terms with
  | [] =>
    have isNumber : SpellsNumber ['0'] ⟨['0'], []⟩ := .whole digits_zero
    obtain ⟨fits, meaning⟩ := phrase_zero
    refine ⟨[⟨false, .number ⟨['0'], []⟩⟩], .unsigned blanksBefore (.number isNumber)
      (.done blanksAfter), ?_, ?_⟩
    · intro phrase member
      rw [List.mem_singleton.mp member]
      exact fits
    · rw [List.map_cons, meaning]
      rfl
  | first :: later =>
    obtain ⟨firstFinite, laterFinite⟩ := List.forall_mem_cons.mp finite
    obtain ⟨phrases, isLater, fits, meaning⟩ := exists_spellsLater blanksAfter laterFinite
    obtain ⟨body, spelling, isBody, text, phraseFits, phraseMeaning⟩ := exists_body firstFinite
    refine ⟨⟨(first.value + 0).negative, spelling⟩ :: phrases, ?_,
      List.forall_mem_cons.mpr ⟨phraseFits, fits⟩, ?_⟩
    · rw [toList_sideText, text, List.append_assoc, List.append_assoc]
      cases (first.value + 0).negative
      · rw [if_neg Bool.false_ne_true, List.nil_append]
        exact .unsigned blanksBefore isBody isLater
      · exact .signed blanksBefore (.minus .nil) isBody isLater
    · rw [List.map_cons, phraseMeaning, meaning]
      rfl

/-- A printed side is read as the terms it was printed from, but for zeros. -/
theorem readSide_sideText {terms : List Term} {before after : List Char}
    (blanksBefore : Blanks before) (blanksAfter : Blanks after)
    (finite : ∀ term ∈ terms, term.value.isFinite = true) :
    readSide (before ++ ((sideText terms).toList ++ after)) = .ok (printed terms) := by
  obtain ⟨phrases, isSide, fits, meaning⟩ := exists_spellsSide blanksBefore blanksAfter finite
  exact readSide_eq_ok_iff.mpr ⟨phrases, isSide, fits, meaning.symm⟩

end Quadratics.Equation
