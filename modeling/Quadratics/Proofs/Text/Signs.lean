import Quadratics.Proofs.Text.Decimals
import Quadratics.Proofs.Text.OverflowWords

/-!
# The sign of a shown number

The text of a positive number is a numeral of a positive number or the word for an infinity
(`WritesPositive`), and that of a negative number has a minus sign in front
(`WritesNegative`).

A number that is shown to three places keeps its sign, unless nothing is left of it.  Just
what is less than half a thousandth is shown as zero (`shown_three_eq_zero_iff`), by either
branch: what looks whole is nearer to zero than that, or it is no nearer than a half.
-/

namespace Quadratics

set_option autoImplicit false

open Equation (SpellsNumber Numeral)

/-! ## What a text says -/

/-- The text is that of a positive number, or of what is larger than every number. -/
def WritesPositive (text : String) : Prop :=
  text = "inf" ∨ ∃ numeral, SpellsNumber text.toList numeral ∧ 0 < numeral.exact

/-- The text has a minus sign in front of a positive one. -/
def WritesNegative (text : String) : Prop :=
  ∃ written, text = "-" ++ written ∧ WritesPositive written

theorem not_writesPositive_zero : ¬ WritesPositive "0" := by
  rintro (isWord | ⟨numeral, isNumber, positive⟩)
  · exact absurd isWord (by decide)
  · rw [show "0".toList = ['0'] by decide] at isNumber
    have none : Equation.digitsValue (['0'] ++ []) = 0 := by decide
    rw [Equation.eq_zero_of_spells isNumber, Numeral.exact, none, Nat.cast_zero, zero_div]
      at positive
    exact lt_irrefl 0 positive

theorem not_writesNegative_zero : ¬ WritesNegative "0" := by
  rintro ⟨written, same, -⟩
  have characters := congrArg String.toList same
  rw [String.toList_append, show "0".toList = ['0'] by decide, show "-".toList = ['-'] by decide]
    at characters
  cases characters

namespace Binary64

variable {x y : Binary64} {places : Nat}

/-! ## The text of a signed number -/

/-- Without its sign, the text of a finite number other than zero is that of a positive one. -/
theorem exists_positive_numeral (finite : x.isFinite = true) (nonzero : ¬ x.Vanishes) :
    ∃ written numeral, SpellsNumber written numeral ∧ 0 < numeral.exact ∧
      x.text.toList = (if x.negative then ['-'] else []) ++ written := by
  obtain ⟨written, numeral, isNumber, text, -, value⟩ := Equation.exists_numeral finite
  refine ⟨written, numeral, isNumber, ?_, text⟩
  by_contra none
  have unsigned : 0 ≤ numeral.exact := div_nonneg (Nat.cast_nonneg _) (by positivity)
  -- A numeral of zero is read as zero, since zero itself is a number.
  have rounds := numeral.roundsTo
  rw [le_antisymm (not_lt.mp none) unsigned] at rounds
  have zero : numeral.value.toRat = 0 := by
    cases rounds with
    | near _ _ nearest =>
      have near := nearest 0 vanishes_zero.1
      rw [toRat_zero, sub_self, abs_zero, abs_nonpos_iff] at near
      exact sub_eq_zero.mp near
    | far outside _ => exact absurd outside (by rw [abs_zero]; exact not_le.mpr overflowBound_pos)
  rw [vanishes_iff_toRat finite] at nonzero
  rw [value] at zero
  split at zero
  · rw [toRat_neg, neg_eq_zero] at zero
    exact nonzero zero
  · exact nonzero zero

/-- **A positive number is written as one.** -/
theorem writesPositive_text (positive : 0 < x) : WritesPositive x.text := by
  match x with
  | .nan _ => exact absurd positive Bool.false_ne_true
  | .infinity true => exact absurd positive (by decide)
  | .infinity false => exact .inl rfl
  | .finite negative significand exponent canonical =>
    have above := (lt_iff_toRat vanishes_zero.1 rfl).mp positive
    rw [toRat_zero] at above
    obtain ⟨written, numeral, isNumber, isPositive, text⟩ := exists_positive_numeral rfl
      ((vanishes_iff_toRat rfl).not.mpr above.ne')
    rw [negative_eq_false_of_toRat_pos above] at text
    exact .inr ⟨numeral, text ▸ isNumber, isPositive⟩

/-- **A negative number is written as one.** -/
theorem writesNegative_text (signed : x < 0) : WritesNegative x.text := by
  match x with
  | .nan _ => exact absurd signed Bool.false_ne_true
  | .infinity false => exact absurd signed (by decide)
  | .infinity true => exact ⟨"inf", by decide, .inl rfl⟩
  | .finite negative significand exponent canonical =>
    have below := (lt_iff_toRat rfl vanishes_zero.1).mp signed
    rw [toRat_zero] at below
    obtain ⟨written, numeral, isNumber, isPositive, text⟩ := exists_positive_numeral rfl
      ((vanishes_iff_toRat rfl).not.mpr below.ne)
    have sign : (finite negative significand exponent canonical).negative = true := by
      by_contra unsigned
      exact absurd (toRat_nonneg (Bool.eq_false_of_not_eq_true unsigned)) (not_le.mpr below)
    rw [sign] at text
    refine ⟨String.ofList written, ?_, .inr ⟨numeral, ?_, isPositive⟩⟩
    · rw [← String.toList_inj, text, String.toList_append, String.toList_ofList,
        String.toList_ofList]
      rfl
    · rwa [String.toList_ofList]

/-! ## Three places -/

theorem roundTo_eq_zero (vanishes : (x.roundTo places).Vanishes) : x.roundTo places = 0 := by
  have alike : Alike ((x * placesScale places).round / placesScale places) 0 :=
    .inr ⟨(alike_add_zero _).vanishes_iff.mp vanishes, vanishes_zero⟩
  exact alike.add_zero_eq.trans (by decide)

/-- What looks whole and is rounded to zero is far below half a thousandth. -/
theorem abs_toRat_lt_of_looksWhole (finite : x.isFinite = true) (looks : x.looksWhole = true)
    (small : |x.toRat| < 1 / 2) : |x.toRat| < 1 / 2000 := by
  have tens : (10 : ℚ) ^ noisePlaces = 100000000 := by norm_num [noisePlaces]
  have noise := abs_toRat_roundTo_sub_le_of_small le_rfl (by decide) (isWhole_iff.mp looks).1
    (by rw [tens]; linarith)
  rw [tens] at noise
  have zero := toRat_roundTo_zero_of_looksWhole finite looks (by linarith)
  rw [(isInteger_roundTo_zero finite).exact, roundedAway_eq_zero_iff.mpr small, Int.cast_zero]
    at zero
  have left : |0 - x.toRat| = |x.toRat| := by simp
  rw [← zero, left] at noise
  linarith

/-- **Just what is less than half a thousandth is zero to three places.** -/
theorem shownNumber_three_vanishes_iff (finite : x.isFinite = true) :
    (x.shownNumber 3).Vanishes ↔ |x.toRat| < 1 / 2000 := by
  rw [shownNumber]
  cases looks : x.looksWhole with
  | true =>
    rw [if_pos rfl, vanishes_iff_toRat (isFinite_roundTo_zero finite),
      (isInteger_roundTo_zero finite).exact, Int.cast_eq_zero, roundedAway_eq_zero_iff]
    exact ⟨abs_toRat_lt_of_looksWhole finite looks, fun small => small.trans (by norm_num)⟩
  | false =>
    rw [if_neg Bool.false_ne_true]
    by_cases fits : (x.roundTo 3).isFinite = true
    · rw [vanishes_iff_toRat fits, toRat_roundTo_eq_zero_iff (by decide) fits,
        placeSteps_three_eq_zero_iff fits]
    · refine iff_of_false (fun vanishes => fits vanishes.1) fun small => fits ?_
      exact isFinite_roundTo_of_small (by decide) finite (small.trans (by norm_num))

/-- A positive number stays positive to three places, if anything is left of it. -/
theorem shownNumber_three_pos (finite : x.isFinite = true) (large : 1 / 2000 ≤ x.toRat) :
    0 < x.shownNumber 3 := by
  have positive : 0 < x.toRat := by linarith
  have nonzero : ¬ (x.shownNumber 3).Vanishes := by
    rw [shownNumber_three_vanishes_iff finite, abs_of_pos positive, not_lt]
    exact large
  exact roundTo_pos (by split <;> decide) finite positive nonzero

/-- A negative number stays negative to three places, if anything is left of it. -/
theorem shownNumber_three_neg (finite : x.isFinite = true) (large : x.toRat ≤ -(1 / 2000)) :
    x.shownNumber 3 < 0 := by
  have mirrored : Reflects (x.shownNumber 3) ((-x).shownNumber 3) := by
    rw [shownNumber, shownNumber, (reflects_neg x).looksWhole_eq]
    exact (reflects_neg x).roundTo _
  refine mirrored.neg_of_pos (shownNumber_three_pos ((isFinite_neg x).trans finite) ?_)
  rw [toRat_neg]
  linarith

/-! ## The text to three places -/

theorem shown_three_of_small (finite : x.isFinite = true) (small : |x.toRat| < 1 / 2000) :
    x.shown 3 = "0" := by
  rw [shown_eq_text, shownNumber,
    roundTo_eq_zero ((shownNumber_three_vanishes_iff finite).mpr small)]
  decide

theorem writesPositive_shown_three (finite : x.isFinite = true) (large : 1 / 2000 ≤ x.toRat) :
    WritesPositive (x.shown 3) := by
  rw [shown_eq_text]
  exact writesPositive_text (shownNumber_three_pos finite large)

theorem writesNegative_shown_three (finite : x.isFinite = true)
    (large : x.toRat ≤ -(1 / 2000)) : WritesNegative (x.shown 3) := by
  rw [shown_eq_text]
  exact writesNegative_text (shownNumber_three_neg finite large)

/-- **Just what is less than half a thousandth is shown as zero** to three places. -/
theorem shown_three_eq_zero_iff (finite : x.isFinite = true) :
    x.shown 3 = "0" ↔ |x.toRat| < 1 / 2000 := by
  refine ⟨fun isZero => ?_, shown_three_of_small finite⟩
  by_contra large
  rcases le_abs.mp (not_lt.mp large) with positive | signed
  · exact not_writesPositive_zero (isZero ▸ writesPositive_shown_three finite positive)
  · exact not_writesNegative_zero
      (isZero ▸ writesNegative_shown_three finite (le_neg_of_le_neg signed))

end Binary64

end Quadratics
