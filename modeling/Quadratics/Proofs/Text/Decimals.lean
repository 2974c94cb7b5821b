import Quadratics.Proofs.Binary64.FewPlaces
import Quadratics.Proofs.Equation.Printing

/-!
# The decimals of a shown number

A number that is rounded to few places is a number of steps of the last place, rounded once.
So what is written of it ends at no finer place (`le_place_shortest_roundTo`), and has no more
digits behind the point than there are places.

The number that is written is off by the error of rounding to places, and by what the decimal
and the number that it is read as differ by (`exists_numeral_near`).  A number that looks whole
is rounded to a whole number instead.  That is the whole number that it looks like, which is as
near to it as any number of steps is (`toRat_roundTo_zero_of_looksWhole`).
-/

namespace Quadratics

set_option autoImplicit false

open Equation (SpellsNumber Numeral)

namespace Binary64

variable {x : Binary64} {places : Nat}

/-! ## Where the text ends -/

/-- The number whose text is shown. -/
def shownNumber (x : Binary64) (places : Nat) : Binary64 :=
  x.roundTo (if x.looksWhole then 0 else places)

theorem shown_eq_text (x : Binary64) (places : Nat) :
    x.shown places = (x.shownNumber places).text := rfl

/-- The shown number is finite where rounding to places is. -/
theorem isFinite_shownNumber (finite : (x.roundTo places).isFinite = true) :
    (x.shownNumber places).isFinite = true := by
  rw [shownNumber]
  split
  · exact isFinite_roundTo_zero (isFinite_of_mul (isFinite_scaled finite)).1
  · exact finite

/-- **What is written of a number rounded to few places ends at the last of them or before.** -/
theorem le_place_shortest_roundTo (few : places ≤ exactPlaces)
    (finite : (x.roundTo places).isFinite = true) :
    -(places : Int) ≤ (Decimal.shortest (x.roundTo places)).place := by
  by_cases zero : (x.roundTo places).magnitude = 0
  · rw [Decimal.shortest, if_pos zero]
    exact Int.neg_nonpos_of_nonneg (Int.natCast_nonneg places)
  · have alike := roundTo_alike few finite
    rw [div_eq_mul_inv, ← zpow_natCast, ← zpow_neg] at alike
    exact Decimal.le_place_shortest_of_alike finite zero alike

theorem le_place_shortest_shownNumber (few : places ≤ exactPlaces)
    (finite : (x.roundTo places).isFinite = true) :
    -(places : Int) ≤ (Decimal.shortest (x.shownNumber places)).place := by
  have shownFinite := isFinite_shownNumber finite
  rw [shownNumber] at shownFinite ⊢
  cases looks : x.looksWhole with
  | true =>
    rw [looks, if_pos rfl] at shownFinite
    have ends := le_place_shortest_roundTo (Nat.zero_le exactPlaces) shownFinite
    rw [if_pos rfl]
    omega
  | false => exact le_place_shortest_roundTo few finite

/-! ## The sign of zero -/

/-- Only a negative zero is written as one. -/
theorem text_ne_negative_zero (finite : x.isFinite = true) (unsigned : x ≠ -0) :
    x.text ≠ "-0" := by
  intro same
  obtain ⟨written, numeral, isNumber, text, -, value⟩ := Equation.exists_numeral finite
  rw [same, show "-0".toList = ['-', '0'] by decide] at text
  cases negative : x.negative with
  | false =>
    -- A numeral does not begin with a minus sign.
    rw [negative] at text
    obtain ⟨first, behind, isWritten, digit⟩ := isNumber.exists_digit
    rw [isWritten] at text
    cases text
    cases digit
  | true =>
    rw [negative] at text value
    obtain rfl : ['0'] = written := List.tail_eq_of_cons_eq text
    rw [Equation.eq_zero_of_spells isNumber, Equation.value_zero] at value
    exact unsigned (by rw [value, if_pos rfl, neg_neg])

/-! ## The number that is written -/

/-- **The number that is written is near the one that it is read as.** -/
theorem exists_numeral_near (finite : x.isFinite = true) :
    ∃ written numeral, SpellsNumber written numeral ∧
      x.text.toList = (if x.negative then ['-'] else []) ++ written ∧
      numeral.fraction.length = (-(Decimal.shortest x).place).toNat ∧
      |signedRat x.negative numeral.exact - x.toRat| ≤ numeral.exact / 2 ^ 53 + halfUnit := by
  obtain ⟨written, numeral, isNumber, text, length, value⟩ := Equation.exists_numeral finite
  refine ⟨written, numeral, isNumber, text, length, ?_⟩
  have alike : Alike numeral.value (rounded numeral.exact) := by
    rw [← numeral.exact_eq]
    exact Decimal.nearest_alike _
  have unsigned := numeral.exact_nonneg
  have valueFinite : numeral.value.isFinite = true := by
    rw [value]
    split
    · exact (isFinite_neg x).trans finite
    · exact finite
  have error := alike.abs_sub_le valueFinite
  rw [abs_of_nonneg unsigned, abs_sub_comm] at error
  cases sign : x.negative with
  | false =>
    rw [value, sign, if_neg Bool.false_ne_true] at error
    exact error
  | true =>
    rw [value, sign, if_pos rfl, toRat_neg, sub_neg_eq_add] at error
    rwa [signedRat, if_pos rfl, abs_sub_comm, sub_neg_eq_add, add_comm]

/-! ## Whole numbers -/

/-- What looks whole is rounded to the whole number that it looks like, if it is near. -/
theorem toRat_roundTo_zero_of_looksWhole (finite : x.isFinite = true)
    (looks : x.looksWhole = true) (near : |(x.roundTo noisePlaces).toRat - x.toRat| < 1 / 2) :
    (x.roundTo 0).toRat = (x.roundTo noisePlaces).toRat := by
  obtain ⟨-, number, same⟩ := isWhole_iff.mp looks
  have half := abs_roundedAway_sub_le x.toRat
  rw [(isInteger_roundTo_zero finite).exact]
  rw [same] at near ⊢
  have apart : |(roundedAway x.toRat : ℚ) - number| < 1 := by
    have parts := abs_sub_le (roundedAway x.toRat : ℚ) x.toRat number
    rw [abs_sub_comm x.toRat] at parts
    linarith
  have closer : |roundedAway x.toRat - number| < 1 := by exact_mod_cast apart
  rw [Int.abs_lt_one_iff, sub_eq_zero] at closer
  rw [closer]

/-! ## The error -/

/-- **The shown number is near the number.**  It looks whole, or it is rounded to places; either
way the error is that of rounding to the places where it is looked at. -/
theorem abs_toRat_shownNumber_sub_le (few : places ≤ noisePlaces)
    (finite : (x.roundTo places).isFinite = true) (small : |x.toRat| * 10 ^ places ≤ 2 ^ 50) :
    |(x.shownNumber places).toRat - x.toRat| * 10 ^ places ≤ 27 / 32 := by
  have fewExact : noisePlaces ≤ exactPlaces := by decide
  have plain := abs_toRat_roundTo_sub_le_of_small le_rfl (few.trans fewExact) finite small
  cases looks : x.looksWhole with
  | false => rwa [shownNumber, looks, if_neg Bool.false_ne_true]
  | true =>
    rw [shownNumber, looks, if_pos rfl]
    rcases Nat.eq_zero_or_pos places with rfl | some
    · exact plain
    · have tens : (10 : ℚ) ≤ 10 ^ places := le_self_pow₀ (by norm_num) some.ne'
      have noise := abs_toRat_roundTo_sub_le_of_small few fewExact (isWhole_iff.mp looks).1 small
      have near : |(x.roundTo noisePlaces).toRat - x.toRat| < 1 / 2 := by
        have below := mul_le_mul_of_nonneg_left tens
          (abs_nonneg ((x.roundTo noisePlaces).toRat - x.toRat))
        linarith
      have xFinite := (isFinite_of_mul (isFinite_scaled finite)).1
      rwa [toRat_roundTo_zero_of_looksWhole xFinite looks near]

/-- **What is shown of a number has no more decimals than it was asked for, and is near it.**
For up to twenty-two places at which rounding does not overflow, it is a numeral, with a minus
sign in front or without, that has at most so many digits behind the point; it is never a
negative zero.  For up to eight places it is less than a step of the last place off, as long as
the number has few enough digits in front of the point. -/
theorem shown_decimals (few : places ≤ 22) (finite : (x.roundTo places).isFinite = true) :
    ∃ negative written numeral, SpellsNumber written numeral ∧
      (x.shown places).toList = (if negative then ['-'] else []) ++ written ∧
      numeral.fraction.length ≤ places ∧ x.shown places ≠ "-0" ∧
      (places ≤ 8 → |x.toRat| * 10 ^ places ≤ 2 ^ 50 →
        |signedRat negative numeral.exact - x.toRat| < 1 / 10 ^ places) := by
  have shownFinite := isFinite_shownNumber finite
  obtain ⟨written, numeral, isNumber, text, length, near⟩ := exists_numeral_near shownFinite
  refine ⟨_, written, numeral, isNumber, text, ?_, ?_, fun fewer small => ?_⟩
  · have ends := le_place_shortest_shownNumber few finite
    omega
  · exact text_ne_negative_zero shownFinite (add_zero_ne_neg_zero _)
  · have tens : (0 : ℚ) < 10 ^ places := by positivity
    have rounding := abs_toRat_shownNumber_sub_le fewer finite small
    have writing := mul_le_mul_of_nonneg_right near tens.le
    have tiny := halfUnit_mul_tens_le few
    have unsigned : |signedRat (x.shownNumber places).negative numeral.exact| = numeral.exact := by
      rw [abs_signedRat, abs_of_nonneg]
      exact div_nonneg (Nat.cast_nonneg _) (by positivity)
    -- The number that is written is not much larger than the number.
    have size := mul_le_mul_of_nonneg_right (abs_sub_abs_le_abs_sub
      (signedRat (x.shownNumber places).negative numeral.exact) x.toRat) tens.le
    have parts := mul_le_mul_of_nonneg_right (abs_sub_le
      (signedRat (x.shownNumber places).negative numeral.exact)
      (x.shownNumber places).toRat x.toRat) tens.le
    rw [lt_div_iff₀ tens]
    rw [unsigned, sub_mul] at size
    rw [add_mul] at writing parts
    rw [div_mul_eq_mul_div] at writing
    norm_num at small writing tiny ⊢
    linarith

/-- An eighth to two places, where half a step is rounded away from zero. -/
theorem shown_decimals_eighth : ((1 / 8 : Binary64).roundTo 2).isFinite = true ∧
    ∃ negative written numeral, SpellsNumber written numeral ∧
      ((1 / 8 : Binary64).shown 2).toList = (if negative then ['-'] else []) ++ written ∧
      numeral.fraction.length ≤ 2 ∧ (1 / 8 : Binary64).shown 2 ≠ "-0" ∧
      |signedRat negative numeral.exact - (1 / 8 : Binary64).toRat| < 1 / 10 ^ 2 := by
  obtain ⟨finite, small⟩ : ((1 / 8 : Binary64).roundTo 2).isFinite = true ∧
      (1 / 8 : Binary64).magnitude ≤ unitsPerOne := by
    decide +kernel
  obtain ⟨negative, written, numeral, isNumber, text, length, unsigned, near⟩ :=
    shown_decimals (by decide : 2 ≤ 22) finite
  refine ⟨finite, negative, written, numeral, isNumber, text, length, unsigned,
    near (by decide) ?_⟩
  have one : |(1 / 8 : Binary64).toRat| ≤ 1 := by
    rw [abs_toRat, div_le_one unitsPerOne_cast_pos]
    exact_mod_cast small
  norm_num
  linarith

end Binary64

end Quadratics
