import Quadratics.Proofs.Binary64.Precision
import Quadratics.Proofs.Equation.Reading

/-!
# Terms that stand alone with their power

Reduction adds terms of one power, so a term that is alone with its power is left as it is,
with the other sign if it comes from the right side.  It has its place in the reduced form
unless its coefficient is zero (`mem_reduce_of_alone`).

A coefficient is zero just when the number that is written is half a unit at most, which is
`2 ^ -1075` (`Spelling.vanishes_magnitude_iff`).  Numerals with a digit other than zero are
larger as long as they have at most 323 digits behind the point (`Numeral.halfUnit_lt_exact`).
One more digit is too many: a numeral that is too large is refused, but one that is too small
is read as zero, and the only term of its power is lost (`reduce_loses_alone`).
-/

namespace Quadratics.Equation

set_option autoImplicit false

open Binary64 (RoundsTo halfUnit)
open Grouping (ofPower)

/-! ## The number in front of a term -/

/-- One of the digits of the numeral is not zero. -/
def Numeral.HasDigit (numeral : Numeral) : Prop :=
  ∃ digit ∈ numeral.whole ++ numeral.fraction, digit.isDigit = true ∧ digit ≠ '0'

/-- The number that stands in front of a power, one where none is written. -/
def Spelling.exact (spelling : Spelling) : ℚ :=
  match spelling.numeral? with
  | some numeral => numeral.exact
  | none => 1

theorem digitsValue_pos {digits : List Char} {digit : Char} (member : digit ∈ digits)
    (isDigit : digit.isDigit = true) (nonzero : digit ≠ '0') : 0 < digitsValue digits := by
  obtain ⟨front, back, rfl⟩ := List.append_of_mem member
  have digitPositive : 0 < digit.toNat - '0'.toNat := by
    have above : '0'.toNat ≤ digit.toNat := by
      simp only [Char.isDigit, Bool.and_eq_true, decide_eq_true_eq] at isDigit
      exact isDigit.1
    have different : digit.toNat ≠ '0'.toNat := fun same => nonzero (Char.toNat_inj.mp same)
    omega
  rw [digitsValue, Nat.ofDigitChars_append, Nat.ofDigitChars_cons,
    Nat.ofDigitChars_eq_ofDigitChars_zero]
  positivity

/-- One at any of the first 323 places behind the point is more than half a unit. -/
theorem halfUnit_lt_place {places : Nat} (few : places ≤ 323) : halfUnit < 1 / 10 ^ places := by
  have least : (10 : ℚ) ^ 323 < 2 ^ 1075 :=
    calc (10 : ℚ) ^ 323
      _ = (10 ^ 59) ^ 5 * 10 ^ 28 := by rw [← pow_mul, ← pow_add]
      _ < (2 ^ 196) ^ 5 * 2 ^ 95 := by gcongr <;> norm_num
      _ = 2 ^ 1075 := by rw [← pow_mul, ← pow_add]
  calc halfUnit
    _ < 1 / 10 ^ 323 := one_div_lt_one_div_of_lt (by positivity) least
    _ ≤ 1 / 10 ^ places := one_div_pow_le_one_div_pow_of_le (by norm_num) few

/-- **A numeral with a digit and few places is more than half a unit.** -/
theorem Numeral.halfUnit_lt_exact {numeral : Numeral} (hasDigit : numeral.HasDigit)
    (few : numeral.fraction.length ≤ 323) : halfUnit < numeral.exact := by
  obtain ⟨digit, member, isDigit, nonzero⟩ := hasDigit
  have positive : (1 : ℚ) ≤ digitsValue (numeral.whole ++ numeral.fraction) :=
    Nat.one_le_cast.mpr (digitsValue_pos member isDigit nonzero)
  exact (halfUnit_lt_place few).trans_le (div_le_div_of_nonneg_right positive (by positivity))

namespace Spelling

theorem exact_nonneg (spelling : Spelling) : 0 ≤ spelling.exact := by
  unfold exact
  split
  · exact Numeral.exact_nonneg _
  · exact zero_le_one

/-- A coefficient is what the number in front rounds to. -/
theorem roundsTo (spelling : Spelling) : RoundsTo spelling.exact spelling.magnitude := by
  unfold exact magnitude
  cases spelling.numeral? with
  | some numeral => exact numeral.roundsTo
  | none =>
    have one := Binary64.roundsTo_rounded ((1 : ℤ) : ℚ)
    rwa [← Binary64.ofInt_eq_rounded, Int.cast_one] at one

/-- **A coefficient is zero just when the number in front is half a unit at most.** -/
theorem vanishes_magnitude_iff (spelling : Spelling) :
    spelling.magnitude.Vanishes ↔ spelling.exact ≤ halfUnit := by
  rw [spelling.roundsTo.vanishes_iff, abs_of_nonneg spelling.exact_nonneg]

theorem halfUnit_lt_exact {spelling : Spelling}
    (legible : ∀ numeral, spelling.numeral? = some numeral →
      numeral.HasDigit ∧ numeral.fraction.length ≤ 323) : halfUnit < spelling.exact := by
  unfold exact
  split
  · rename_i numeral written
    obtain ⟨hasDigit, few⟩ := legible numeral written
    exact Numeral.halfUnit_lt_exact hasDigit few
  · exact Binary64.halfUnit_lt_one

end Spelling

theorem Phrase.vanishes_value_iff (phrase : Phrase) :
    phrase.term.value.Vanishes ↔ phrase.spelling.exact ≤ halfUnit := by
  rw [← Spelling.vanishes_magnitude_iff, Phrase.term]
  split
  · exact Binary64.vanishes_neg_iff
  · exact Iff.rfl

/-! ## Reduction of a power with one term -/

/-- A term is the only one of its power. -/
def Alone (terms : List Term) (term : Term) : Prop :=
  ofPower terms term.power = [term]

/-- A term that is alone among those of both sides stands on one of them, and is all that its
power amounts to. -/
theorem Alone.collect_eq {left right : List Term} {term : Term}
    (alone : Alone (left ++ right) term) :
    (term ∈ left ∧ term ∉ right ∧ collect (balance left right term.power) = term.value) ∨
      (term ∈ right ∧ term ∉ left ∧ collect (balance left right term.power) = -term.value) := by
  have absent : ∀ terms, ofPower terms term.power = [] → term ∉ terms := by
    intro terms none member
    exact List.ne_nil_of_mem (Grouping.mem_ofPower.mpr ⟨member, rfl⟩) none
  have present : ∀ terms, ofPower terms term.power = [term] → term ∈ terms := by
    intro terms one
    exact (Grouping.mem_ofPower.mp (one ▸ List.mem_singleton_self term)).1
  have values : ∀ terms, likeValues terms term.power =
      (ofPower terms term.power).map Term.value := fun _ => rfl
  have apart : ofPower (left ++ right) term.power =
      ofPower left term.power ++ ofPower right term.power := List.filter_append _ _
  rw [Alone, apart] at alone
  rw [balance, values, values]
  rcases List.append_eq_singleton_iff.mp alone with ⟨none, one⟩ | ⟨one, none⟩
  · rw [none, one]
    exact .inr ⟨present right one, absent left none, collect_singleton _⟩
  · rw [none, one]
    exact .inl ⟨present left one, absent right none, collect_singleton _⟩

/-- A term that is alone does not stand on both sides. -/
theorem Alone.not_mem_right {left right : List Term} {term : Term}
    (alone : Alone (left ++ right) term) (onLeft : term ∈ left) : term ∉ right := by
  rcases alone.collect_eq with ⟨-, notRight, -⟩ | ⟨-, notLeft, -⟩
  · exact notRight
  · exact absurd onLeft notLeft

/-- **What becomes of a term that is alone with its power.** -/
theorem mem_reduce_of_alone {left right : List Term} {term other : Term}
    (alone : Alone (left ++ right) term) (like : other.power = term.power) :
    other ∈ (ofSides left right).reduce.left ↔ ¬ term.value.Vanishes ∧
      (term ∈ left ∧ other = term ∨ term ∈ right ∧ other = term.neg) := by
  have collected : other ∈ (ofSides left right).reduce.left ↔ ¬ other.value.Vanishes ∧
      other.value = collect (balance left right term.power) := by
    rw [← like, ← likeValues_moved, ← Binary64.sameNumber_zero_eq_false_iff]
    exact mem_collectTerms
  rw [collected]
  -- The power is known, so what is left to say of the kept term is its coefficient.
  obtain ⟨value, power⟩ := other
  change power = term.power at like
  subst like
  rcases alone.collect_eq with ⟨onLeft, notRight, same⟩ | ⟨onRight, notLeft, same⟩
  · rw [same]
    constructor
    · rintro ⟨nonzero, rfl⟩
      exact ⟨nonzero, .inl ⟨onLeft, rfl⟩⟩
    · rintro ⟨nonzero, ⟨-, isTerm⟩ | ⟨onRight, -⟩⟩
      · obtain rfl : value = term.value := congrArg Term.value isTerm
        exact ⟨nonzero, rfl⟩
      · exact absurd onRight notRight
  · rw [same]
    constructor
    · rintro ⟨nonzero, rfl⟩
      exact ⟨mt Binary64.vanishes_neg_iff.mpr nonzero, .inr ⟨onRight, rfl⟩⟩
    · rintro ⟨nonzero, ⟨onLeft, -⟩ | ⟨-, isTerm⟩⟩
      · exact absurd onLeft notLeft
      · cases isTerm
        exact ⟨mt Binary64.vanishes_neg_iff.mp nonzero, rfl⟩

/-! ## Phrases -/

/-- What is read of a text are the terms that it writes. -/
theorem eq_of_read {source : String} {equation : Equation} {left right : List Phrase}
    (isRead : read source = .ok equation) (writes : Writes source.toList left right)
    (fits : ∀ phrase ∈ left ++ right, phrase.Fits) :
    equation = ofSides (left.map Phrase.term) (right.map Phrase.term) := by
  obtain ⟨leftText, rightText, text, noLeft, noRight, isLeft, isRight⟩ := writes
  obtain ⟨leftFits, rightFits⟩ := List.forall_mem_append.mp fits
  have leftRead := readSide_eq_ok_iff.mpr ⟨left, isLeft, leftFits, rfl⟩
  have rightRead := readSide_eq_ok_iff.mpr ⟨right, isRight, rightFits, rfl⟩
  rw [read, text, readCharacters_append noLeft noRight leftRead rightRead] at isRead
  split at isRead
  · cases isRead
  · exact (Except.ok.inj isRead).symm

section Phrases

variable {left right : List Phrase} {phrase : Phrase} (member : phrase ∈ left ++ right)
  (alone : Alone (left.map Phrase.term ++ right.map Phrase.term) phrase.term)
include member alone

/-- What becomes of a phrase that writes the only term of its power. -/
theorem mem_reduce_of_phrase {term : Term} (like : term.power = phrase.term.power) :
    term ∈ (ofSides (left.map Phrase.term) (right.map Phrase.term)).reduce.left ↔
      halfUnit < phrase.spelling.exact ∧
        (phrase ∈ left ∧ term = phrase.term ∨ phrase ∈ right ∧ term = phrase.term.neg) := by
  have onLeft : phrase.term ∈ left.map Phrase.term ↔ phrase ∈ left := by
    refine ⟨fun isLeft => ?_, List.mem_map_of_mem⟩
    refine (List.mem_append.mp member).resolve_right fun isRight => ?_
    exact alone.not_mem_right isLeft (List.mem_map_of_mem isRight)
  have onRight : phrase.term ∈ right.map Phrase.term ↔ phrase ∈ right := by
    refine ⟨fun isRight => ?_, List.mem_map_of_mem⟩
    refine (List.mem_append.mp member).resolve_left fun isLeft => ?_
    exact alone.not_mem_right (List.mem_map_of_mem isLeft) isRight
  rw [mem_reduce_of_alone alone like, phrase.vanishes_value_iff, not_le, onLeft, onRight]

theorem exists_mem_reduce_iff :
    (∃ term ∈ (ofSides (left.map Phrase.term) (right.map Phrase.term)).reduce.left,
      term.power = phrase.term.power) ↔ halfUnit < phrase.spelling.exact := by
  constructor
  · rintro ⟨term, isKept, like⟩
    exact ((mem_reduce_of_phrase member alone like).mp isKept).1
  · intro large
    have kept := fun term => @mem_reduce_of_phrase left right phrase member alone term
    rcases List.mem_append.mp member with onLeft | onRight
    · exact ⟨phrase.term, (kept _ rfl).mpr ⟨large, .inl ⟨onLeft, rfl⟩⟩, rfl⟩
    · exact ⟨phrase.term.neg, (kept phrase.term.neg rfl).mpr ⟨large, .inr ⟨onRight, rfl⟩⟩, rfl⟩

end Phrases

/-! ## A numeral times the unknown -/

/-- The phrase of a numeral times the unknown. -/
def timesUnknown (numeral : Numeral) : Phrase :=
  ⟨false, .multiple numeral none⟩

/-- The phrase of the number one. -/
def onePhrase : Phrase :=
  ⟨false, .number ⟨['1'], []⟩⟩

/-- The characters of the equation between a numeral times the unknown and one. -/
def unitEquation (numeral : Numeral) : List Char :=
  ((numeral.whole ++ '.' :: numeral.fraction) ++ [' ', '*', ' ', 'x', ' ']) ++ '=' :: [' ', '1']

theorem writes_unitEquation {numeral : Numeral} (isWhole : Digits numeral.whole)
    (isFraction : Digits numeral.fraction) :
    Writes (unitEquation numeral) [timesUnknown numeral] [onePhrase] := by
  have isUnknown : isVariable 'x' = true := rfl
  have isLeft := SpellsSide.unsigned .nil
    (.multiple (.pointed isWhole isFraction) .space .space (.bare isUnknown)) (.done .space)
  have isRight : SpellsSide [' ', '1'] [onePhrase] :=
    .unsigned .space (.number (.whole (.singleton rfl))) (.done .nil)
  refine ⟨_, _, ?_, isLeft.no_equals, isRight.no_equals, isLeft, isRight⟩
  simp only [unitEquation, List.nil_append, List.append_assoc, List.cons_append]

/-- The numeral of one half. -/
def halfNumeral : Numeral :=
  ⟨['0'], ['5']⟩

/-- The numeral of `10 ^ -324`. -/
def tinyNumeral : Numeral :=
  ⟨['0'], List.replicate 323 '0' ++ ['1']⟩

theorem digits_tinyNumeral : Digits tinyNumeral.fraction := by
  refine ⟨List.append_ne_nil_of_right_ne_nil _ (List.cons_ne_nil _ _), ?_⟩
  intro character member
  rcases List.mem_append.mp member with zero | last
  · rw [List.eq_of_mem_replicate zero]
    rfl
  · rw [List.mem_singleton.mp last]
    rfl

theorem read_unitEquation :
    readCharacters (unitEquation halfNumeral) = .ok (ofSides [⟨halfNumeral.value, 1⟩] [⟨1, 0⟩]) ∧
      readCharacters (unitEquation tinyNumeral) = .ok (ofSides [⟨0, 1⟩] [⟨1, 0⟩]) ∧
      (ofSides [⟨0, 1⟩] [⟨1, 0⟩]).reduce.left = [⟨-1, 0⟩] ∧
      halfNumeral.value.isFinite = true ∧ onePhrase.spelling.magnitude.isFinite = true := by
  decide +kernel

/-! ## Accepted equations -/

/-- **A term that is alone with its power is kept, unless its number is too small.**  The
reduced form of an accepted equation has a term of that power just when the number in front is
more than half a unit, and it is then the term that was written, with the other sign if it
stands on the right side.  Half a unit is exceeded where no number is written, and by every
numeral with a digit other than zero and at most 323 digits behind the point. -/
theorem reduce_keeps_alone {source : String} {equation : Equation}
    (isRead : read source = .ok equation) :
    (∃ left right, Writes source.toList left right ∧ ∀ phrase ∈ left ++ right, phrase.Fits) ∧
      ∀ left right, Writes source.toList left right → (∀ phrase ∈ left ++ right, phrase.Fits) →
        equation.left = left.map Phrase.term ∧ equation.right = right.map Phrase.term ∧
        ∀ phrase ∈ left ++ right, Alone (equation.left ++ equation.right) phrase.term →
          ((∃ term ∈ equation.reduce.left, term.power = phrase.term.power) ↔
            halfUnit < phrase.spelling.exact) ∧
          (∀ term ∈ equation.reduce.left, term.power = phrase.term.power →
            term.isZero = false ∧ (phrase ∈ left ∧ term = phrase.term ∨
              phrase ∈ right ∧ term = phrase.term.neg)) ∧
          ((∀ numeral, phrase.spelling.numeral? = some numeral →
              numeral.HasDigit ∧ numeral.fraction.length ≤ 323) →
            ∃ term ∈ equation.reduce.left, term.power = phrase.term.power) := by
  constructor
  · obtain ⟨left, right, writes, fits, -⟩ := (read_eq_ok_iff.1 source equation).mp isRead
    exact ⟨left, right, writes, fits⟩
  · intro left right writes fits
    obtain rfl := eq_of_read isRead writes fits
    refine ⟨rfl, rfl, fun phrase member alone => ?_⟩
    have occurs := exists_mem_reduce_iff member alone
    refine ⟨occurs, fun term isKept like => ⟨?_, ?_⟩, fun legible => ?_⟩
    · exact (canonical_collectTerms _).nonzero term isKept
    · exact ((mem_reduce_of_phrase member alone like).mp isKept).2
    · exact occurs.mpr (Spelling.halfUnit_lt_exact legible)

/-- The reduced form of `0.5 * x = 1` has a term of the unknown. -/
theorem reduce_keeps_alone_half :
    ∃ equation, read (String.ofList (unitEquation halfNumeral)) = .ok equation ∧
      ∃ term ∈ equation.reduce.left, term.power = 1 := by
  obtain ⟨accepted, -, -, halfFinite, oneFinite⟩ := read_unitEquation
  rw [← @String.toList_ofList (unitEquation halfNumeral)] at accepted
  have writes := @writes_unitEquation halfNumeral (.singleton rfl) (.singleton rfl)
  rw [← @String.toList_ofList (unitEquation halfNumeral)] at writes
  have fits : ∀ phrase ∈ [timesUnknown halfNumeral] ++ [onePhrase], phrase.Fits := by
    intro phrase member
    rcases List.mem_pair.mp member with rfl | rfl
    · exact ⟨halfFinite, by decide⟩
    · exact ⟨oneFinite, by decide⟩
  have alone : Alone ([⟨halfNumeral.value, 1⟩] ++ [⟨1, 0⟩]) (timesUnknown halfNumeral).term := by
    generalize halfNumeral = numeral
    rfl
  obtain ⟨-, kept⟩ := reduce_keeps_alone accepted
  obtain ⟨-, -, kept⟩ := kept _ _ writes fits
  obtain ⟨-, -, kept⟩ := kept (timesUnknown halfNumeral) List.mem_cons_self alone
  refine ⟨_, accepted, kept fun numeral written => ?_⟩
  obtain rfl := Option.some.inj written
  exact ⟨⟨'5', List.mem_cons_of_mem _ List.mem_cons_self, rfl, by decide⟩, by decide⟩

/-- **The only term of a power is lost where its number is too small.**  With `D` for
`10 ^ -324`, which has a digit that is not zero, `D * x = 1` is accepted, and its reduced form
has no term of the unknown. -/
theorem reduce_loses_alone :
    Writes (unitEquation tinyNumeral) [timesUnknown tinyNumeral] [onePhrase] ∧
      tinyNumeral.HasDigit ∧
      ∃ equation, read (String.ofList (unitEquation tinyNumeral)) = .ok equation ∧
        (equation.left ++ equation.right).map Term.power = [1, 0] ∧
        ∀ term ∈ equation.reduce.left, term.power ≠ 1 := by
  obtain ⟨-, accepted, reduced, -⟩ := read_unitEquation
  rw [← @String.toList_ofList (unitEquation tinyNumeral)] at accepted
  have hasDigit : tinyNumeral.HasDigit :=
    ⟨'1', List.mem_append_right _ (List.mem_append_right _ List.mem_cons_self), rfl, by decide⟩
  refine ⟨writes_unitEquation (.singleton rfl) digits_tinyNumeral, hasDigit, _, accepted, rfl, ?_⟩
  intro term member
  rw [reduced] at member
  rw [List.mem_singleton.mp member]
  decide

end Quadratics.Equation
