import Quadratics.Equation.Reader
import Quadratics.Proofs.Decimal.Nearest
import Quadratics.Proofs.Equation.CanonicalForm
import Quadratics.Proofs.Equation.Scanning

/-!
# Reading follows the grammar

A text is read as an equation just when it has one equals sign, both of its sides
are sentences of the grammar that fit, and the equation they mean can be worked
with.  What is read is then the meaning of the two sentences, term by term, and
each number in it is the binary64 number nearest to the numeral that stands there
(`read_eq_ok_iff`).

What makes an equation workable is said of the values of each power
(`Workable`), without mention of the reduced form in which it is looked up.
-/

namespace Quadratics.Equation

set_option autoImplicit false

/-! ## The number a numeral writes -/

/-- The number that a numeral writes. -/
def Numeral.exact (numeral : Numeral) : ℚ :=
  digitsValue (numeral.whole ++ numeral.fraction) / 10 ^ numeral.fraction.length

theorem Numeral.exact_nonneg (numeral : Numeral) : 0 ≤ numeral.exact := by
  rw [Numeral.exact]
  positivity

/-- The number that a numeral writes is that of its digits as a decimal. -/
theorem Numeral.exact_eq (numeral : Numeral) :
    Decimal.exact ⟨false, digitsValue (numeral.whole ++ numeral.fraction),
      -(numeral.fraction.length : Int)⟩ = numeral.exact := by
  rw [Decimal.exact, Binary64.signedRat, if_neg Bool.false_ne_true, zpow_neg, zpow_natCast,
    ← div_eq_mul_inv]
  rfl

/-- A numeral has the value that its number rounds to. -/
theorem Numeral.roundsTo (numeral : Numeral) :
    Binary64.RoundsTo numeral.exact numeral.value := by
  rw [← numeral.exact_eq]
  exact Decimal.roundsTo_nearest _

/-! ## Sides -/

/-- **A side is read just when it is a sentence that fits**, and as its meaning. -/
theorem readSide_eq_ok_iff {text : List Char} {terms : List Term} :
    readSide text = .ok terms ↔
      ∃ phrases, SpellsSide text phrases ∧ (∀ phrase ∈ phrases, phrase.Fits) ∧
        terms = phrases.map Phrase.term := by
  constructor
  · intro isRead
    unfold readSide at isRead
    split at isRead
    · cases isRead
    · rename_i visible
      dsimp only at isRead
      split at isRead
      · cases isRead
      · rename_i noFault
        cases isRead
        exact spellsSide_of_scans visible ⟨noFault, rfl⟩
  · rintro ⟨phrases, isSide, fits, rfl⟩
    obtain ⟨visible, noFault, same⟩ := isSide.scans fits
    unfold readSide
    rw [if_neg visible]
    dsimp only
    rw [noFault, same]

theorem ne_equals_of_not_mem {left : List Char} (noEquals : '=' ∉ left) :
    ∀ character ∈ left, (character != '=') = true := by
  intro character member
  apply bne_iff_ne.mpr
  rintro rfl
  exact noEquals member

theorem leftSide_append {left : List Char} (noEquals : '=' ∉ left) (right : List Char) :
    leftSide (left ++ '=' :: right) = left := by
  rw [leftSide, List.takeWhile_append_of_pos (ne_equals_of_not_mem noEquals),
    List.takeWhile_cons_of_neg (by simp), List.append_nil]

theorem rightSide_append {left : List Char} (noEquals : '=' ∉ left) (right : List Char) :
    rightSide (left ++ '=' :: right) = right := by
  rw [rightSide, List.dropWhile_append_of_pos (ne_equals_of_not_mem noEquals),
    List.dropWhile_cons_of_neg (by simp)]
  rfl

/-- A text with one equals sign has a left and a right side. -/
theorem count_equals_eq_one_iff {text : List Char} :
    text.count '=' = 1 ↔
      ∃ left right, text = left ++ '=' :: right ∧ '=' ∉ left ∧ '=' ∉ right := by
  constructor
  · intro once
    have member : '=' ∈ text := List.count_pos_iff.mp (once ▸ Nat.one_pos)
    obtain ⟨left, right, rfl, noEquals⟩ := List.eq_append_cons_of_mem member
    refine ⟨left, right, rfl, noEquals, ?_⟩
    rw [List.count_append, List.count_cons_self, List.count_eq_zero.mpr noEquals] at once
    exact List.count_eq_zero.mp (by omega)
  · rintro ⟨left, right, rfl, noLeft, noRight⟩
    rw [List.count_append, List.count_cons_self, List.count_eq_zero.mpr noLeft,
      List.count_eq_zero.mpr noRight]

/-! ## Equations that can be worked with -/

/-- The coefficients of an equation are finite, and it has none past that of the
square. -/
structure Workable (equation : Equation) : Prop where
  finite : ∀ power, (collect (likeValues equation.moved power)).isFinite = true
  low : ∀ power, 2 < power → (collect (likeValues equation.moved power)).sameNumber 0 = true

theorem higher_le_iff {power other bound : UInt32} :
    higher power other ≤ bound ↔ power ≤ bound ∧ other ≤ bound := by
  simp only [higher]
  simp only [UInt32.le_iff_toNat_le, UInt32.lt_iff_toNat_lt]
  split <;> omega

theorem highestPower_le_iff {terms : List Term} {bound : UInt32} :
    highestPower terms ≤ bound ↔ ∀ term ∈ terms, term.power ≤ bound := by
  induction terms with
  | nil =>
    refine iff_of_true ?_ fun _ member => absurd member List.not_mem_nil
    rw [UInt32.le_iff_toNat_le]
    exact Nat.zero_le _
  | cons term terms ih =>
    rw [List.forall_mem_cons, ← ih]
    exact higher_le_iff

/-- The highest power occurs, unless there is no power above zero. -/
theorem exists_mem_highestPower {terms : List Term} (positive : highestPower terms ≠ 0) :
    ∃ term ∈ terms, term.power = highestPower terms := by
  induction terms with
  | nil => exact absurd rfl positive
  | cons first rest ih =>
    have unfolded : highestPower (first :: rest) = higher first.power (highestPower rest) := rfl
    rw [unfolded] at positive ⊢
    unfold higher at positive ⊢
    split at positive
    · rename_i below
      obtain ⟨term, member, same⟩ := ih positive
      exact ⟨term, List.mem_cons_of_mem _ member, by rw [if_pos below, same]⟩
    · rename_i above
      exact ⟨first, List.mem_cons_self, by rw [if_neg above]⟩

/-- What holds of all terms of the reduced form holds of all powers that amount to
something. -/
theorem forall_mem_collectTerms {terms : List Term} {property : Binary64 → UInt32 → Prop} :
    (∀ term ∈ collectTerms terms, property term.value term.power) ↔
      ∀ power, ¬ (collect (likeValues terms power)).Vanishes →
        property (collect (likeValues terms power)) power := by
  constructor
  · intro all power nonzero
    refine all ⟨collect (likeValues terms power), power⟩ (mem_collectTerms.mpr ⟨?_, rfl⟩)
    exact Binary64.sameNumber_zero_eq_false_iff.mpr nonzero
  · intro all term member
    obtain ⟨nonzero, same⟩ := mem_collectTerms.mp member
    rw [same]
    refine all term.power ?_
    rw [← same]
    exact Binary64.sameNumber_zero_eq_false_iff.mp nonzero

/-- The reduced form is finite where all powers amount to something finite. -/
theorem finite_reduce_iff {left right : List Term} :
    (∀ term ∈ (ofSides left right).reduce.left, term.value.isFinite = true) ↔
      ∀ power, (collect (likeValues (ofSides left right).moved power)).isFinite = true := by
  refine (@forall_mem_collectTerms _ fun value _ => value.isFinite = true).trans ?_
  refine forall_congr' fun power => ⟨fun nonzero => ?_, fun finite _ => finite⟩
  by_cases vanishes : (collect (likeValues (ofSides left right).moved power)).Vanishes
  · exact vanishes.1
  · exact nonzero vanishes

/-- A coefficient is finite where all terms are. -/
theorem isFinite_coefficient {equation : Equation}
    (finite : ∀ term ∈ equation.left, term.value.isFinite = true) (power : UInt32) :
    (equation.coefficient power).isFinite = true := by
  simp only [coefficient]
  split
  · rename_i term found
    exact finite term (List.mem_of_find?_eq_some found)
  · exact Binary64.vanishes_zero.1

/-- **There is no objection to an equation just when it can be worked with.** -/
theorem objection_eq_none_iff {left right : List Term} :
    (ofSides left right).objection = none ↔ (ofSides left right).Workable := by
  have finite := @finite_reduce_iff left right
  have low : (ofSides left right).reduce.degree ≤ solvableDegree ↔
      ∀ power, 2 < power →
        (collect (likeValues (ofSides left right).moved power)).sameNumber 0 = true := by
    have degree : (ofSides left right).reduce.degree =
        highestPower (collectTerms (ofSides left right).moved) :=
      congrArg highestPower (List.append_nil _)
    rw [degree, highestPower_le_iff]
    refine (@forall_mem_collectTerms _ fun _ power => power ≤ solvableDegree).trans ?_
    apply forall_congr'
    intro power
    rw [Binary64.sameNumber_zero_iff, solvableDegree, ← UInt32.not_lt, not_imp_not]
  simp only [objection]
  split
  · rename_i term found
    have infinite := List.find?_some found
    apply iff_of_false (Option.some_ne_none _)
    intro workable
    rw [finite.mpr workable.finite term (List.mem_of_find?_eq_some found)] at infinite
    cases infinite
  · rename_i none
    have allFinite : ∀ term ∈ (ofSides left right).reduce.left, term.value.isFinite = true := by
      intro term member
      simpa using List.find?_eq_none.mp none term member
    split
    · rename_i above
      apply iff_of_false (Option.some_ne_none _)
      intro workable
      exact UInt32.not_lt.mpr (low.mpr workable.low) above
    · rename_i notAbove
      exact iff_of_true rfl ⟨finite.mp allFinite, low.mp (UInt32.not_lt.mp notAbove)⟩

/-! ## Whole texts -/

/-- Two sides that are read on their own are read together. -/
theorem readCharacters_append {left right : List Char} {leftTerms rightTerms : List Term}
    (noLeft : '=' ∉ left) (noRight : '=' ∉ right) (leftRead : readSide left = .ok leftTerms)
    (rightRead : readSide right = .ok rightTerms) :
    readCharacters (left ++ '=' :: right) =
      match (ofSides leftTerms rightTerms).objection with
      | some reason => .error (.citing (left ++ '=' :: right) reason)
      | none => .ok (ofSides leftTerms rightTerms) := by
  have once := count_equals_eq_one_iff.mpr ⟨left, right, rfl, noLeft, noRight⟩
  have sides : readSides (left ++ '=' :: right) = .ok (ofSides leftTerms rightTerms) := by
    rw [readSides, leftSide_append noLeft, rightSide_append noLeft, leftRead, rightRead]
    rfl
  simp only [readCharacters]
  rw [if_neg (not_not.mpr once)]
  cases objected : (ofSides leftTerms rightTerms).objection with
  | none => simp only [sides, objected]
  | some reason => simp only [sides, objected]

theorem readCharacters_eq_ok_iff {text : List Char} {equation : Equation} :
    readCharacters text = .ok equation ↔
      ∃ left right leftTerms rightTerms, text = left ++ '=' :: right ∧
        '=' ∉ left ∧ '=' ∉ right ∧ readSide left = .ok leftTerms ∧
        readSide right = .ok rightTerms ∧ equation = ofSides leftTerms rightTerms ∧
        (ofSides leftTerms rightTerms).Workable := by
  constructor
  · intro isRead
    by_cases once : text.count '=' = 1
    · obtain ⟨left, right, rfl, noLeft, noRight⟩ := count_equals_eq_one_iff.mp once
      have sides := isRead
      unfold readCharacters at sides
      dsimp only at sides
      rw [if_neg (not_not.mpr once), readSides, leftSide_append noLeft,
        rightSide_append noLeft] at sides
      cases leftRead : readSide left with
      | error refusal => rw [leftRead] at sides; cases sides
      | ok leftTerms =>
        cases rightRead : readSide right with
        | error refusal => rw [leftRead, rightRead] at sides; cases sides
        | ok rightTerms =>
          rw [readCharacters_append noLeft noRight leftRead rightRead] at isRead
          split at isRead
          · cases isRead
          · rename_i noObjection
            cases isRead
            exact ⟨left, right, leftTerms, rightTerms, rfl, noLeft, noRight, leftRead, rightRead,
              rfl, objection_eq_none_iff.mp noObjection⟩
    · unfold readCharacters at isRead
      dsimp only at isRead
      rw [if_pos once] at isRead
      cases isRead
  · rintro ⟨left, right, leftTerms, rightTerms, rfl, noLeft, noRight, leftRead, rightRead, rfl,
      workable⟩
    rw [readCharacters_append noLeft noRight leftRead rightRead,
      objection_eq_none_iff.mpr workable]

/-- A text writes an equation between two sentences of the grammar. -/
def Writes (text : List Char) (left right : List Phrase) : Prop :=
  ∃ leftText rightText, text = leftText ++ '=' :: rightText ∧ '=' ∉ leftText ∧ '=' ∉ rightText ∧
    SpellsSide leftText left ∧ SpellsSide rightText right

/-- **A text is read just when it writes an equation that fits and can be worked
with**, and as the meaning of what it writes; the numbers in it are the nearest ones
to the numerals. -/
theorem read_eq_ok_iff :
    (∀ (source : String) (equation : Equation), read source = .ok equation ↔
      ∃ left right, Writes source.toList left right ∧
        (∀ phrase ∈ left ++ right, phrase.Fits) ∧
        equation.left = left.map Phrase.term ∧ equation.right = right.map Phrase.term ∧
        equation.form = .written ∧ equation.left ≠ [] ∧ equation.right ≠ [] ∧
        equation.Workable) ∧
      ∀ numeral : Numeral, Binary64.RoundsTo numeral.exact numeral.value := by
  refine ⟨?_, Numeral.roundsTo⟩
  intro source equation
  rw [read, readCharacters_eq_ok_iff]
  constructor
  · rintro ⟨leftText, rightText, leftTerms, rightTerms, text_eq, noLeft, noRight, leftRead,
      rightRead, rfl, workable⟩
    obtain ⟨left, isLeft, leftFits, rfl⟩ := readSide_eq_ok_iff.mp leftRead
    obtain ⟨right, isRight, rightFits, rfl⟩ := readSide_eq_ok_iff.mp rightRead
    refine ⟨left, right, ⟨leftText, rightText, text_eq, noLeft, noRight, isLeft, isRight⟩, ?_, rfl,
      rfl, rfl, ?_, ?_, workable⟩
    · intro phrase member
      rcases List.mem_append.mp member with member | member
      · exact leftFits phrase member
      · exact rightFits phrase member
    · intro none
      exact isLeft.ne_nil (List.map_eq_nil_iff.mp none)
    · intro none
      exact isRight.ne_nil (List.map_eq_nil_iff.mp none)
  · rintro ⟨left, right, ⟨leftText, rightText, text_eq, noLeft, noRight, isLeft, isRight⟩, fits,
      leftTerms, rightTerms, written, -, -, workable⟩
    have same : equation = ofSides (left.map Phrase.term) (right.map Phrase.term) := by
      obtain ⟨_, _, _⟩ := equation
      cases leftTerms
      cases rightTerms
      cases written
      rfl
    subst same
    refine ⟨leftText, rightText, _, _, text_eq, noLeft, noRight, ?_, ?_, rfl, workable⟩
    · exact readSide_eq_ok_iff.mpr ⟨left, isLeft,
        fun phrase member => fits phrase (List.mem_append_left _ member), rfl⟩
    · exact readSide_eq_ok_iff.mpr ⟨right, isRight,
        fun phrase member => fits phrase (List.mem_append_right _ member), rfl⟩

end Quadratics.Equation
