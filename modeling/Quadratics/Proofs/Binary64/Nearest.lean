import Quadratics.Proofs.Binary64.Rounding

/-!
# Rounding as a property of exact values

Here binary64 numbers are compared with rational numbers.  A number is the
rounding of a rational number (`RoundsTo`) when it is finite and no finite number
is nearer, with an even significand if another is as near, or when it is the
infinity on the side of a rational number that lies at or beyond
`2 ^ 1024 - 2 ^ 970`.  The main statement is that `ofQuotient` rounds in this
sense (`roundsTo_ofQuotient`), for every quotient.
-/

namespace Quadratics.Binary64

set_option autoImplicit false

/-! ## Exact values -/

/-- The exact value of a finite number. -/
def toRat (x : Binary64) : ℚ :=
  x.units / unitsPerOne

/-- A nonnegative rational number with a sign. -/
def signedRat (negative : Bool) (value : ℚ) : ℚ :=
  if negative then -value else value

/-- Where rounding begins to give infinities. -/
def overflowBound : ℚ :=
  2 ^ 1024 - 2 ^ 970

/-- The significand of a finite number. -/
def significand : Binary64 → Nat
  | .finite _ significand _ _ => significand
  | .infinity _ => 0
  | .nan _ => 0

/-- A number is what a rational number rounds to: the nearest finite one, of two
equally near ones the one with an even significand, and an infinity from the
overflow bound on. -/
inductive RoundsTo (value : ℚ) (x : Binary64) : Prop where
  /-- The rational number lies within the range of the finite numbers. -/
  | near (inside : |value| < overflowBound) (finite : x.isFinite = true)
      (nearest : ∀ y : Binary64, y.isFinite = true → |x.toRat - value| ≤ |y.toRat - value|)
      (even : ∀ y : Binary64, y.isFinite = true → y.toRat ≠ x.toRat →
        |x.toRat - value| = |y.toRat - value| → x.significand % 2 = 0)
  /-- The rational number lies outside of it. -/
  | far (outside : overflowBound ≤ |value|) (infinite : x = .infinity (decide (value < 0)))

theorem unitsPerOne_cast_pos : (0 : ℚ) < unitsPerOne :=
  Nat.cast_pos.mpr unitsPerOne_pos

theorem abs_signedRat (negative : Bool) (value : ℚ) : |signedRat negative value| = |value| := by
  cases negative
  · rfl
  · exact abs_neg value

theorem toRat_eq (x : Binary64) :
    x.toRat = signedRat x.negative ((x.magnitude : ℚ) / unitsPerOne) := by
  simp only [toRat, units, signed, signedRat]
  split
  · push_cast
    ring
  · push_cast
    rfl

theorem abs_toRat (x : Binary64) : |x.toRat| = (x.magnitude : ℚ) / unitsPerOne := by
  rw [toRat_eq, abs_signedRat]
  exact abs_of_nonneg (by positivity)

theorem overflowBound_pos : 0 < overflowBound :=
  sub_pos.mpr (pow_lt_pow_right₀ one_lt_two (by decide))

theorem two_pow_le_overflowBound {power : Nat} (small : power ≤ 1023) :
    (2 : ℚ) ^ power ≤ overflowBound := by
  have below : (2 : ℚ) ^ power ≤ 2 ^ 1023 := pow_le_pow_right₀ one_le_two small
  have subtracted : (2 : ℚ) ^ 970 ≤ 2 ^ 1023 := pow_le_pow_right₀ one_le_two (by decide)
  have doubled : (2 : ℚ) ^ 1024 = 2 ^ 1023 * 2 := pow_succ 2 1023
  rw [overflowBound, doubled]
  generalize (2 : ℚ) ^ 1023 = half at *
  generalize (2 : ℚ) ^ 970 = step at *
  linarith

theorem quotient_nonneg (numerator denominator : Nat) :
    (0 : ℚ) ≤ (numerator : ℚ) / denominator / unitsPerOne :=
  div_nonneg (div_nonneg (Nat.cast_nonneg _) (Nat.cast_nonneg _)) (Nat.cast_nonneg _)

theorem overflowCount_div : (overflowCount : ℚ) / unitsPerOne = overflowBound := by
  have split : (2 : ℚ) ^ 2044 = 2 ^ 970 * 2 ^ 1074 := pow_add 2 970 1074
  have top : (2 : ℚ) ^ 1024 = 2 ^ 54 * 2 ^ 970 := pow_add 2 54 970
  have nonzero : (2 : ℚ) ^ 1074 ≠ 0 := pow_ne_zero _ two_ne_zero
  rw [overflowCount, unitsPerOne_eq, Nat.shiftLeft_eq, overflowBound]
  push_cast
  rw [split, top]
  generalize (2 : ℚ) ^ 1074 = unit at *
  generalize (2 : ℚ) ^ 970 = bound at *
  field_simp
  ring

/-! ## Distances as counts -/

theorem abs_sub_eq_offset (count : Nat) (numerator : Nat) {denominator : Nat}
    (positive : 0 < denominator) :
    |(count : ℚ) / unitsPerOne - (numerator : ℚ) / denominator / unitsPerOne| =
      (offset count numerator denominator : ℚ) / denominator / unitsPerOne := by
  have unitPositive := unitsPerOne_cast_pos
  have denominatorPositive : (0 : ℚ) < denominator := Nat.cast_pos.mpr positive
  have offsetCast : (offset count numerator denominator : ℚ) =
      |(count : ℚ) * denominator - numerator| := by
    rw [offset, Nat.cast_natAbs]
    push_cast
    rfl
  have scaled : (count : ℚ) / unitsPerOne - (numerator : ℚ) / denominator / unitsPerOne =
      ((count : ℚ) * denominator - numerator) / denominator / unitsPerOne := by
    field_simp
  rw [scaled, offsetCast, abs_div, abs_div, abs_of_pos unitPositive,
    abs_of_pos denominatorPositive]

theorem even_significand_ofScaled {negative : Bool} {kept exponent : Nat}
    (even : kept % 2 = 0) : (ofScaled negative kept exponent).significand % 2 = 0 := by
  simp only [ofScaled]
  split <;> split
  · rw [significand, leadingBit_eq]
    rfl
  · rfl
  · exact even
  · rfl

/-! ## The rounding of a quotient -/

section Quotient

variable {negative : Bool} {numerator denominator : Nat}

theorem signedRat_sub (negative : Bool) (first second : ℚ) :
    |signedRat negative first - signedRat negative second| = |first - second| := by
  cases negative
  · rfl
  · rw [signedRat, signedRat, if_pos rfl, if_pos rfl, neg_sub_neg, abs_sub_comm]

/-- The distance of the rounded quotient from the quotient. -/
theorem abs_ofQuotient_sub (positive : 0 < denominator)
    (finite : (ofQuotient negative numerator denominator).isFinite = true) :
    |(ofQuotient negative numerator denominator).toRat -
        signedRat negative ((numerator : ℚ) / denominator / unitsPerOne)| =
      (offset (roundedSignificand numerator denominator <<<
        droppedBits numerator denominator : Nat) numerator denominator : ℚ) /
          denominator / unitsPerOne := by
  rw [toRat_eq, negative_ofQuotient, signedRat_sub, magnitude_ofQuotient finite,
    abs_sub_eq_offset _ _ positive]

/-- A number of either sign is at least as far from a quotient as its magnitude
is. -/
theorem offset_le_abs_sub (positive : 0 < denominator) (y : Binary64) :
    (offset y.magnitude numerator denominator : ℚ) / denominator / unitsPerOne ≤
      |y.toRat - signedRat negative ((numerator : ℚ) / denominator / unitsPerOne)| := by
  have magnitudeOf := abs_toRat y
  have nonnegative := quotient_nonneg numerator denominator
  have quotientOf := abs_signedRat negative ((numerator : ℚ) / denominator / unitsPerOne)
  rw [abs_of_nonneg nonnegative] at quotientOf
  rw [← abs_sub_eq_offset _ _ positive]
  generalize signedRat negative ((numerator : ℚ) / denominator / unitsPerOne) = quotient at *
  generalize y.toRat = value at *
  rw [← magnitudeOf, ← quotientOf]
  exact abs_abs_sub_abs_le value quotient

theorem abs_quotient_lt_iff (positive : 0 < denominator) :
    |signedRat negative ((numerator : ℚ) / denominator / unitsPerOne)| < overflowBound ↔
      numerator < overflowCount * denominator := by
  have unitPositive := unitsPerOne_cast_pos
  have denominatorPositive : (0 : ℚ) < denominator := Nat.cast_pos.mpr positive
  have nonnegative := quotient_nonneg numerator denominator
  rw [abs_signedRat, abs_of_nonneg nonnegative, ← overflowCount_div,
    div_lt_div_iff_of_pos_right unitPositive, div_lt_iff₀ denominatorPositive]
  exact_mod_cast Iff.rfl

/-- A nonnegative number and its opposite are equally far from a quotient only
when one of the two vanishes. -/
theorem eq_zero_of_opposite_tie {value quotient : ℚ}
    (tie : |signedRat negative value - signedRat negative quotient| =
      |signedRat (!negative) value - signedRat negative quotient|) :
    value = 0 ∨ quotient = 0 := by
  cases negative
  · simp only [signedRat, Bool.not_false, if_true, Bool.false_eq_true, if_false] at tie
    rcases abs_eq_abs.mp tie with same | opposite
    · exact .inl (by linarith)
    · exact .inr (by linarith)
  · simp only [signedRat, Bool.not_true, if_true, Bool.false_eq_true, if_false] at tie
    rcases abs_eq_abs.mp tie with same | opposite
    · exact .inl (by linarith)
    · exact .inr (by linarith)

theorem roundedSignificand_zero (positive : 0 < denominator) :
    roundedSignificand 0 denominator = 0 := by
  have multiple := @nearestEven_mul 0 _ (shifted_pos positive (droppedBits 0 denominator))
  rwa [Nat.zero_mul] at multiple

/-- Where another number is as near to the quotient, the significand is even. -/
theorem roundedSignificand_even_of_tie (positive : 0 < denominator)
    (finite : (ofQuotient negative numerator denominator).isFinite = true) {y : Binary64}
    (different : y.toRat ≠ (ofQuotient negative numerator denominator).toRat)
    (tie : |(ofQuotient negative numerator denominator).toRat -
        signedRat negative ((numerator : ℚ) / denominator / unitsPerOne)| =
      |y.toRat - signedRat negative ((numerator : ℚ) / denominator / unitsPerOne)|) :
    roundedSignificand numerator denominator % 2 = 0 := by
  obtain ⟨nearest, even⟩ := @roundedSignificand_nearest numerator _ positive y
  have magnitudeOf := magnitude_ofQuotient finite
  by_cases magnitudes : y.magnitude = (ofQuotient negative numerator denominator).magnitude
  · -- Only the opposite number is left, and then the magnitude or the quotient vanishes.
    have signs : y.negative = !negative := by
      refine Bool.eq_not_of_ne fun same => different ?_
      rw [toRat_eq, toRat_eq, magnitudes, same, negative_ofQuotient]
    rw [toRat_eq, toRat_eq y, magnitudes, signs, negative_ofQuotient, magnitudeOf] at tie
    rcases eq_zero_of_opposite_tie tie with zero | zero
    · have vanishes := (div_eq_zero_iff.mp zero).resolve_right unitsPerOne_cast_pos.ne'
      rw [Nat.cast_eq_zero, Nat.shiftLeft_eq] at vanishes
      rw [(Nat.mul_eq_zero.mp vanishes).resolve_right (Nat.two_pow_pos _).ne']
    · have scaled := (div_eq_zero_iff.mp zero).resolve_right unitsPerOne_cast_pos.ne'
      have vanishes := (div_eq_zero_iff.mp scaled).resolve_right (Nat.cast_ne_zero.mpr positive.ne')
      rw [Nat.cast_eq_zero] at vanishes
      rw [vanishes, roundedSignificand_zero positive]
  · rw [magnitudeOf] at magnitudes
    refine even (Nat.le_antisymm nearest ?_) magnitudes
    have reverse := @offset_le_abs_sub negative numerator _ positive y
    rw [← tie, abs_ofQuotient_sub positive finite,
      div_le_div_iff_of_pos_right unitsPerOne_cast_pos,
      div_le_div_iff_of_pos_right (Nat.cast_pos.mpr positive)] at reverse
    exact_mod_cast reverse

/-- What `ofQuotient` gives is the rounding of the quotient. -/
theorem roundsTo_ofQuotient (positive : 0 < denominator) :
    RoundsTo (signedRat negative ((numerator : ℚ) / denominator / unitsPerOne))
      (ofQuotient negative numerator denominator) := by
  have insideIff := @abs_quotient_lt_iff negative numerator _ positive
  by_cases finite : (ofQuotient negative numerator denominator).isFinite = true
  · have inside := insideIff.mpr ((isFinite_ofQuotient positive).mp finite)
    refine .near inside finite (fun y _ => ?_) (fun y _ different tie => ?_)
    · rw [abs_ofQuotient_sub positive finite]
      refine le_trans ?_ (offset_le_abs_sub positive y)
      rw [div_le_div_iff_of_pos_right unitsPerOne_cast_pos,
        div_le_div_iff_of_pos_right (Nat.cast_pos.mpr positive)]
      exact_mod_cast (roundedSignificand_nearest positive y).1
    · exact even_significand_ofScaled (roundedSignificand_even_of_tie positive finite different tie)
  · have outside := not_lt.mp fun inside =>
      finite ((isFinite_ofQuotient positive).mpr (insideIff.mp inside))
    refine .far outside ?_
    rw [ofQuotient_eq_infinity (Bool.eq_false_of_not_eq_true finite)]
    have nonzero : (numerator : ℚ) / denominator / unitsPerOne ≠ 0 := by
      intro zero
      rw [zero, abs_signedRat, abs_zero] at outside
      exact absurd outside (not_le.mpr overflowBound_pos)
    have quotientPositive := lt_of_le_of_ne (quotient_nonneg numerator denominator) nonzero.symm
    cases negative
    · exact congrArg _ (decide_eq_false (not_lt.mpr quotientPositive.le)).symm
    · exact congrArg _ (decide_eq_true (neg_neg_of_pos quotientPositive)).symm

end Quotient

end Quadratics.Binary64
