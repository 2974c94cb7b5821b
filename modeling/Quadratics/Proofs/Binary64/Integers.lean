import Quadratics.Proofs.Binary64.Places
import Quadratics.Proofs.Binary64.SquareRoot
import Quadratics.Proofs.Decimal.Whole

/-!
# Exact integer arithmetic

`IsInteger x n` says that a binary64 number is exactly the integer `n`.  Operations keep
this as long as their result is at most `2 ^ 53` in magnitude: sums, products, quotients
that come out even, and roots of squares.  An integer looks whole at the eight places of the
test if it can be scaled to them exactly (`IsInteger.looksWhole_of_scaled`), or if it is so
large that it has no digits behind the point (`IsInteger.looksWhole_of_large`).  Up to
`2 ^ 34` it is shown as the integer that it is (`IsInteger.shown`).

A number of any size is rounded to an integer exactly, the nearest one with a half going
away from zero (`IsInteger.round`), since the numbers that are too large for their
neighbours to be integers are integers already.
-/

namespace Quadratics.Binary64

set_option autoImplicit false

/-- A number is exactly an integer. -/
structure IsInteger (x : Binary64) (number : ℤ) : Prop where
  finite : x.isFinite = true
  exact : x.toRat = number

namespace IsInteger

variable {x y : Binary64} {number other : ℤ}

/-! ## Operations -/

theorem of_rounded (alike : Alike x (rounded number)) (small : |number| ≤ 2 ^ 53) :
    IsInteger x number := by
  obtain ⟨finite, exact⟩ := toRat_rounded_intCast small
  exact ⟨alike.isFinite_eq.trans finite, alike.toRat_eq.trans exact⟩

/-- An integer that is a binary64 number is rounded to itself. -/
theorem of_exact (integer : IsInteger x number) (alike : Alike y (rounded number)) :
    IsInteger y number := by
  obtain ⟨finite, exact⟩ := toRat_rounded_toRat integer.finite
  rw [integer.exact] at finite exact
  exact ⟨alike.isFinite_eq.trans finite, alike.toRat_eq.trans exact⟩

theorem ofInt (small : |number| ≤ 2 ^ 53) : IsInteger (ofInt number) number := by
  refine of_rounded ?_ small
  rw [ofInt_eq_rounded]
  exact .refl _

theorem ofNat (number : Nat) (small : number ≤ 2 ^ 53) :
    IsInteger (OfNat.ofNat number) (number : ℤ) := by
  obtain ⟨finite, exact⟩ := toRat_ofNat number small
  exact ⟨finite, exact.trans (Int.cast_natCast number).symm⟩

theorem zero : IsInteger 0 0 :=
  ⟨vanishes_zero.1, toRat_zero.trans Int.cast_zero.symm⟩

theorem neg (integer : IsInteger x number) : IsInteger (-x) (-number) :=
  ⟨(isFinite_neg x).trans integer.finite, by rw [toRat_neg, integer.exact, Int.cast_neg]⟩

theorem add (integer : IsInteger x number) (integer' : IsInteger y other)
    (small : |number + other| ≤ 2 ^ 53) : IsInteger (x + y) (number + other) := by
  have alike := add_alike integer.finite integer'.finite
  rw [integer.exact, integer'.exact, ← Int.cast_add] at alike
  exact of_rounded alike small

theorem sub (integer : IsInteger x number) (integer' : IsInteger y other)
    (small : |number - other| ≤ 2 ^ 53) : IsInteger (x - y) (number - other) := by
  rw [sub_def, sub_eq_add_neg] at *
  exact integer.add integer'.neg small

theorem mul (integer : IsInteger x number) (integer' : IsInteger y other)
    (small : |number * other| ≤ 2 ^ 53) : IsInteger (x * y) (number * other) := by
  have alike := mul_alike integer.finite integer'.finite
  rw [integer.exact, integer'.exact, ← Int.cast_mul] at alike
  exact of_rounded alike small

theorem not_vanishes (integer : IsInteger x number) (nonzero : number ≠ 0) : ¬ x.Vanishes := by
  rw [vanishes_iff_toRat integer.finite, integer.exact]
  exact Int.cast_ne_zero.mpr nonzero

/-- A quotient that comes out even is exact, however large its operands are. -/
theorem div (integer : IsInteger x (number * other)) (integer' : IsInteger y other)
    (nonzero : other ≠ 0) (small : |number| ≤ 2 ^ 53) : IsInteger (x / y) number := by
  have alike := div_alike integer.finite integer'.finite (integer'.not_vanishes nonzero)
  rw [integer.exact, integer'.exact, Int.cast_mul,
    mul_div_cancel_right₀ _ (Int.cast_ne_zero.mpr nonzero)] at alike
  exact of_rounded alike small

/-- The root of a square is exact. -/
theorem sqrt (integer : IsInteger x (number ^ 2)) (positive : 0 < number)
    (small : number ≤ 2 ^ 53) : IsInteger x.sqrt number := by
  have root := ofInt ((abs_of_pos positive).trans_le small)
  have rootPositive : 0 < (Binary64.ofInt number).toRat :=
    (Int.cast_pos.mpr positive).trans_eq root.exact.symm
  have same : x.sqrt = Binary64.ofInt number :=
    sqrt_of_square integer.finite root.finite rootPositive
      (by rw [integer.exact, root.exact, Int.cast_pow])
  exact same ▸ root

/-- Only zero has two spellings. -/
theorem eq_ofInt (integer : IsInteger x number) (nonzero : number ≠ 0) :
    x = Binary64.ofInt number := by
  have alike : Alike (rounded x.toRat) x := by
    obtain ⟨finite, exact⟩ := toRat_rounded_toRat integer.finite
    rw [Alike.iff_sameNumber finite, sameNumber_iff finite integer.finite]
    exact toRat_inj.mp exact
  rw [integer.exact, ← ofInt_eq_rounded] at alike
  exact (alike.symm.eq_of_not_vanishes (integer.not_vanishes nonzero))

/-- Without the sign of a zero there is one spelling. -/
theorem add_zero_eq (integer : IsInteger x number) : x + 0 = Binary64.ofInt number := by
  rcases eq_or_ne number 0 with rfl | nonzero
  · have vanishes := (vanishes_iff_toRat integer.finite).mpr (integer.exact.trans Int.cast_zero)
    rw [Alike.add_zero_eq (.inr ⟨vanishes, vanishes_zero⟩)]
    decide +kernel
  · rw [add_of_vanishes vanishes_zero (integer.not_vanishes nonzero), integer.eq_ofInt nonzero]

theorem isWhole (integer : IsInteger x number) : x.isWhole = true :=
  isWhole_iff.mpr ⟨integer.finite, number, integer.exact⟩

/-! ## Rounding to places -/

/-- Rounding to places keeps an integer that can be scaled up exactly. -/
theorem roundTo {places : Nat} {scale : ℤ} (integer : IsInteger x number)
    (scaled : IsInteger (x * placesScale places) (number * scale))
    (isScale : IsInteger (placesScale places) scale) (nonzero : scale ≠ 0) :
    x.roundTo places = Binary64.ofInt number := by
  have back := div_alike scaled.finite isScale.finite (isScale.not_vanishes nonzero)
  rw [scaled.exact, isScale.exact, Int.cast_mul,
    mul_div_cancel_right₀ _ (Int.cast_ne_zero.mpr nonzero)] at back
  rw [Binary64.roundTo, round_of_isWhole scaled.isWhole]
  exact (integer.of_exact back).add_zero_eq

theorem placesScale_zero : IsInteger (placesScale 0) 1 := by
  obtain ⟨finite, exact⟩ := toRat_placesScale_zero
  exact ⟨finite, exact.trans Int.cast_one.symm⟩

theorem placesScale_noisePlaces : IsInteger (placesScale noisePlaces) (10 ^ 8) := by
  obtain ⟨finite, exact⟩ := toRat_placesScale_noisePlaces
  exact ⟨finite, exact.trans (by norm_num)⟩

/-- Rounding an integer to a whole number changes nothing but the sign of a zero. -/
theorem roundTo_zero (integer : IsInteger x number) : x.roundTo 0 = Binary64.ofInt number := by
  have alike := mul_alike integer.finite placesScale_zero.finite
  rw [integer.exact, placesScale_zero.exact, Int.cast_one, mul_one] at alike
  have scaled := integer.of_exact alike
  rw [← mul_one number] at scaled
  exact integer.roundTo scaled placesScale_zero one_ne_zero

/-- **An integer looks whole if its product with `10 ^ 8` is a binary64 number.** -/
theorem looksWhole_of_scaled (integer : IsInteger x number)
    (scaled : IsInteger y (number * 10 ^ 8)) : x.looksWhole = true := by
  have alike := mul_alike integer.finite placesScale_noisePlaces.finite
  rw [integer.exact, placesScale_noisePlaces.exact, ← Int.cast_mul] at alike
  rw [Binary64.looksWhole, integer.roundTo (scaled.of_exact alike) placesScale_noisePlaces
    (by norm_num), ← integer.add_zero_eq, isWhole_iff]
  exact ⟨(isFinite_add_zero x).trans integer.finite, number, (toRat_add_zero x).trans integer.exact⟩

/-- Scaling by `10 ^ 8` is exact as long as scaling by `5 ^ 8` is, since the power of two in it
is free. -/
theorem exists_scaled (small : |number| * 5 ^ 8 ≤ 2 ^ 53) :
    ∃ y : Binary64, IsInteger y (number * 10 ^ 8) := by
  have odd := @ofInt (number * 5 ^ 8) (by
    rwa [abs_mul, abs_of_pos (by norm_num : (0 : ℤ) < 5 ^ 8)])
  have inside : 2 ^ 8 * |(Binary64.ofInt (number * 5 ^ 8)).toRat| < overflowBound := by
    have bound : |(number : ℚ)| * 5 ^ 8 ≤ 2 ^ 53 := by exact_mod_cast small
    have room : (2 : ℚ) ^ 62 ≤ overflowBound := two_pow_le_overflowBound (by decide)
    rw [odd.exact, Int.cast_mul, abs_mul]
    norm_num at bound room ⊢
    linarith
  obtain ⟨y, finite, same⟩ := exists_toRat_doubled odd.finite (by decide) inside
  refine ⟨y, finite, ?_⟩
  rw [same, odd.exact]
  push_cast
  ring

/-- An integer of `2 ^ 52` or more looks whole if its product with `10 ^ 8` does not overflow. -/
theorem looksWhole_of_large (integer : IsInteger x number) (large : 2 ^ 52 ≤ |number|)
    (room : |(number : ℚ)| * 10 ^ 8 < overflowBound) : x.looksWhole = true := by
  by_contra broken
  have below := abs_toRat_lt_of_not_looksWhole integer.finite (Bool.eq_false_of_not_eq_true broken)
    (by rwa [integer.exact])
  rw [integer.exact] at below
  exact absurd (by exact_mod_cast below : |number| < 2 ^ 52) (not_lt.mpr large)

/-- **An integer up to `2 ^ 34` looks whole.** -/
theorem looksWhole (integer : IsInteger x number) (small : |number| ≤ 2 ^ 34) :
    x.looksWhole = true := by
  obtain ⟨y, scaled⟩ := @exists_scaled number (by linarith)
  exact integer.looksWhole_of_scaled scaled

/-- An integer that looks whole is shown like any whole number. -/
theorem shown_of_looksWhole (integer : IsInteger x number) (looks : x.looksWhole = true)
    (places : Nat) : x.shown places = (Binary64.ofInt number).text := by
  rw [Binary64.shown, looks, if_pos rfl, integer.roundTo_zero]

/-- **An integer up to `2 ^ 34` is shown as it is**, whatever the places. -/
theorem shown (integer : IsInteger x number) (small : |number| ≤ 2 ^ 34) (places : Nat) :
    x.shown places = toString number := by
  rw [integer.shown_of_looksWhole (integer.looksWhole small),
    text_ofInt (small.trans_lt (by norm_num))]

end IsInteger

/-! ## Rounding to a whole number -/

/-- The integer nearest to a number, a half going away from zero. -/
def roundedAway (value : ℚ) : ℤ :=
  if value < 0 then -⌊|value| + 1 / 2⌋ else ⌊|value| + 1 / 2⌋

theorem floor_abs_toRat (x : Binary64) :
    ⌊|x.toRat| + 1 / 2⌋ = ((2 * x.magnitude + unitsPerOne) / (2 * unitsPerOne) : Nat) := by
  have positive := unitsPerOne_cast_pos
  have asQuotient : |x.toRat| + 1 / 2 =
      ((2 * x.magnitude + unitsPerOne : Nat) : ℤ) / ((2 * unitsPerOne : Nat) : ℚ) := by
    rw [abs_toRat]
    push_cast
    field_simp
  rw [asQuotient, Rat.floor_intCast_div_natCast, Int.natCast_div]

/-- Rounding to a whole number, in counts. -/
theorem roundedAway_toRat (x : Binary64) : roundedAway x.toRat =
    signed x.negative ((2 * x.magnitude + unitsPerOne) / (2 * unitsPerOne)) := by
  rw [roundedAway, floor_abs_toRat, toRat_eq, signed]
  cases x.negative
  · have unsigned : ¬ ((x.magnitude : ℚ) / unitsPerOne < 0) := not_lt.mpr (by positivity)
    simp only [signedRat, Bool.false_eq_true, if_false, unsigned]
  · rcases Nat.eq_zero_or_pos x.magnitude with zero | positive
    · have none : (2 * x.magnitude + unitsPerOne) / (2 * unitsPerOne) = 0 :=
        Nat.div_eq_of_lt (by have := unitsPerOne_pos; omega)
      rw [none, Int.natCast_zero, Int.neg_zero, ite_self, ite_self]
    · have below : -((x.magnitude : ℚ) / unitsPerOne) < 0 :=
        neg_lt_zero.mpr (div_pos (Nat.cast_pos.mpr positive) unitsPerOne_cast_pos)
      simp only [signedRat, if_true, below]

theorem signedRat_natCast (negative : Bool) (count : Nat) :
    signedRat negative count = (signed negative count : ℤ) := by
  cases negative <;> simp [signedRat, signed]

namespace IsInteger

variable {x : Binary64} {number : ℤ}

/-- A whole number counts so many ones. -/
theorem exists_magnitude (whole : x.isWhole = true) :
    ∃ wholes, x.magnitude = wholes * unitsPerOne ∧ IsInteger x (signed x.negative wholes) := by
  have finite := (isWhole_iff.mp whole).1
  rw [Binary64.isWhole, Bool.and_eq_true, beq_iff_eq] at whole
  obtain ⟨wholes, same⟩ := Nat.dvd_of_mod_eq_zero whole.2
  rw [Nat.mul_comm] at same
  refine ⟨wholes, same, finite, ?_⟩
  rw [toRat_eq, same, Nat.cast_mul, mul_div_cancel_right₀ _ unitsPerOne_cast_pos.ne',
    signedRat_natCast]

/-- **A number is rounded to the nearest integer, a half going away from zero.** -/
theorem round (finite : x.isFinite = true) : IsInteger x.round (roundedAway x.toRat) := by
  rw [roundedAway_toRat]
  by_cases large : 2 ^ 52 ≤ |x.toRat|
  · have whole := isWhole_of_large finite large
    obtain ⟨wholes, same, integer⟩ := exists_magnitude whole
    rw [round_of_isWhole whole, same, Nat.mul_comm wholes, halved_div unitsPerOne_pos]
    exact integer
  · have alike := ofQuotient_alike x.negative
      ((2 * x.magnitude + unitsPerOne) / (2 * unitsPerOne) * unitsPerOne) Nat.one_pos
    rw [← round_eq_ofQuotient finite, Nat.cast_one, div_one, Nat.cast_mul,
      mul_div_cancel_right₀ _ unitsPerOne_cast_pos.ne', signedRat_natCast] at alike
    refine of_rounded alike ?_
    have above : ⌊|x.toRat| + 1 / 2⌋ ≤ 2 ^ 53 := by
      have room : |x.toRat| + 1 / 2 < 2 ^ 52 + 1 := by linarith [not_le.mp large]
      refine (Int.floor_le_iff.mpr ?_)
      push_cast
      linarith
    rw [floor_abs_toRat] at above
    rw [Int.abs_eq_natAbs, signed]
    split
    · rwa [Int.natAbs_neg, Int.natAbs_natCast]
    · rwa [Int.natAbs_natCast]

/-- What an integer holds before its point is the integer. -/
theorem truncate_eq (integer : IsInteger x number) : x.truncate = number := by
  obtain ⟨wholes, same, counted⟩ := exists_magnitude integer.isWhole
  have exact : ((signed x.negative wholes : ℤ) : ℚ) = number :=
    counted.exact.symm.trans integer.exact
  rw [truncate, same, Nat.mul_div_cancel _ unitsPerOne_pos]
  exact_mod_cast exact

end IsInteger

end Quadratics.Binary64
