import Quadratics.Binary64.Places
import Quadratics.Proofs.Binary64.Precision

/-!
# When rounding to places stays finite

Rounding to places scales a number up, rounds it to a whole number and scales it back.
Only the first of these can overflow when the scale is finite (`isFinite_roundTo`), and
at no places at all not even that one (`isFinite_roundTo_zero`).

A number of `2 ^ 52` or more is whole already, and rounding it to places leaves it so
if nothing overflows (`isWhole_roundTo`).  So a number that does not look whole is either
below `2 ^ 52` or so large that it overflows at the eight places at which it is looked at
(`abs_toRat_lt_of_not_looksWhole`).

The scale is found by repeated squaring.  What multiplications keep holds of the product and of
the square after any number of turns (`squaring_run`).  Each multiplication adds one rounding,
so the power of ten lies within as many roundings as it has factors (`squared_run`),
which leaves room for every number below `2 ^ 52` up to `safePlaces` places
(`isFinite_roundTo_of_small`).
-/

namespace Quadratics.Binary64

set_option autoImplicit false

variable {x y : Binary64}

/-! ## Whole numbers -/

theorem halved_div {unit : Nat} (positive : 0 < unit) (wholes : Nat) :
    (2 * (unit * wholes) + unit) / (2 * unit) = wholes := by
  rw [← Nat.mul_assoc, Nat.add_comm, Nat.add_mul_div_left _ _ (by omega),
    Nat.div_eq_of_lt (by omega), Nat.zero_add]

theorem round_eq_ofQuotient (finite : x.isFinite = true) :
    x.round = .ofQuotient x.negative
      ((2 * x.magnitude + unitsPerOne) / (2 * unitsPerOne) * unitsPerOne) 1 := by
  cases x with
  | finite => rfl
  | infinity | nan => cases finite

/-- A whole number is its own rounding to a whole number. -/
theorem round_of_isWhole (whole : x.isWhole = true) : x.round = x := by
  rw [isWhole, Bool.and_eq_true, beq_iff_eq, ← Nat.dvd_iff_mod_eq_zero] at whole
  obtain ⟨finite, wholes, same⟩ := whole
  have found := halved_div unitsPerOne_pos wholes
  rw [← same] at found
  rw [round_eq_ofQuotient finite, found, Nat.mul_comm, ← same]
  exact ofQuotient_magnitude finite

/-- **Rounding to a whole number does not overflow.** -/
theorem isFinite_round (finite : x.isFinite = true) : x.round.isFinite = true := by
  by_cases large : 2 ^ 52 ≤ |x.toRat|
  · rw [round_of_isWhole (isWhole_of_large finite large)]
    exact finite
  · have positive := unitsPerOne_pos
    have small : x.magnitude < 2 ^ 52 * unitsPerOne := by
      rw [abs_toRat, not_le, div_lt_iff₀ unitsPerOne_cast_pos] at large
      exact_mod_cast large
    have room : (2 ^ 52 + 1) * unitsPerOne < overflowCount := by
      obtain ⟨finite, same⟩ := toRat_ofNat (2 ^ 52 + 1) (by decide)
      have inside := abs_toRat_lt finite
      rw [same, Nat.abs_cast, ← overflowCount_div, lt_div_iff₀ unitsPerOne_cast_pos] at inside
      exact_mod_cast inside
    rw [round_eq_ofQuotient finite, isFinite_ofQuotient Nat.one_pos, Nat.mul_one]
    refine lt_of_le_of_lt (Nat.mul_le_mul_right _ (Nat.le_of_lt_succ ?_)) room
    rw [Nat.div_lt_iff_lt_mul (by omega)]
    generalize unitsPerOne = unit at *
    omega

/-- A magnitude rounds to no less than a bound that is a binary64 number. -/
theorem le_abs_toRat_rounded {bound : Binary64} {value : ℚ} (boundFinite : bound.isFinite = true)
    (finite : (rounded value).isFinite = true) (le : bound.toRat ≤ |value|) :
    bound.toRat ≤ |(rounded value).toRat| := by
  rcases le_abs.mp le with above | below
  · exact (le_toRat_rounded finite boundFinite above).trans (le_abs_self _)
  · have negated : value ≤ (-bound).toRat := by
      rw [toRat_neg]
      linarith
    have le := toRat_rounded_le finite ((isFinite_neg bound).trans boundFinite) negated
    rw [toRat_neg] at le
    exact (le_neg_of_le_neg le).trans (neg_le_abs _)

/-! ## Rounding to places -/

section Scale

variable {places : Nat} (scaleFinite : (placesScale places).isFinite = true)
  (scaleLarge : 1 ≤ (placesScale places).toRat)
include scaleFinite scaleLarge

theorem placesScale_nonzero : ¬ (placesScale places).Vanishes := by
  rw [vanishes_iff_toRat scaleFinite]
  linarith

/-- Scaling back does not overflow. -/
theorem isFinite_div_placesScale (finite : x.isFinite = true) :
    (x / placesScale places).isFinite = true := by
  rw [(div_alike finite scaleFinite (placesScale_nonzero scaleFinite scaleLarge)).isFinite_iff,
    abs_div, abs_of_nonneg (zero_le_one.trans scaleLarge)]
  exact (div_le_self (abs_nonneg _) scaleLarge).trans_lt (abs_toRat_lt finite)

/-- **Rounding to places is finite where scaling up is.** -/
theorem isFinite_roundTo (finite : (x * placesScale places).isFinite = true) :
    (x.roundTo places).isFinite = true := by
  rw [roundTo, isFinite_add_zero]
  exact isFinite_div_placesScale scaleFinite scaleLarge (isFinite_round finite)

/-- **A large number stays whole when it is rounded to places.** -/
theorem isWhole_roundTo (finite : (x * placesScale places).isFinite = true)
    (large : 2 ^ 52 ≤ |x.toRat|) : (x.roundTo places).isWhole = true := by
  have xFinite := (isFinite_of_mul finite).1
  have alike := mul_alike xFinite scaleFinite
  have exactFinite := alike.isFinite_eq.symm.trans finite
  have scalePositive : 0 < (placesScale places).toRat := zero_lt_one.trans_le scaleLarge
  have above : 2 ^ 52 * (placesScale places).toRat ≤ |x.toRat * (placesScale places).toRat| := by
    rw [abs_mul, abs_of_pos scalePositive]
    exact mul_le_mul_of_nonneg_right large scalePositive.le
  -- The scaled number is at least this bound, which is a binary64 number itself.
  obtain ⟨bound, boundFinite, same⟩ : ∃ bound : Binary64, bound.isFinite = true ∧
      bound.toRat = 2 ^ 52 * (placesScale places).toRat := by
    refine exists_toRat_doubled scaleFinite (by decide) ?_
    rw [abs_of_pos scalePositive]
    exact above.trans_lt (alike.isFinite_iff.mp finite)
  have scaledLarge : 2 ^ 52 * (placesScale places).toRat ≤ |(x * placesScale places).toRat| := by
    rw [alike.toRat_eq, ← same]
    exact le_abs_toRat_rounded boundFinite exactFinite (same.trans_le above)
  have scaledWhole : (x * placesScale places).isWhole = true :=
    isWhole_of_large finite ((le_mul_of_one_le_right (by norm_num) scaleLarge).trans scaledLarge)
  rw [roundTo, round_of_isWhole scaledWhole]
  have backFinite := isFinite_div_placesScale scaleFinite scaleLarge finite
  have backAlike := div_alike finite scaleFinite (placesScale_nonzero scaleFinite scaleLarge)
  obtain ⟨limitFinite, limit⟩ := toRat_ofNat (2 ^ 52) (by decide)
  refine isWhole_of_large ((isFinite_add_zero _).trans backFinite) ?_
  rw [toRat_add_zero, backAlike.toRat_eq]
  have limitCast : (OfNat.ofNat (2 ^ 52) : Binary64).toRat = 2 ^ 52 := limit.trans (by norm_num)
  rw [← limitCast]
  refine le_abs_toRat_rounded limitFinite (backAlike.isFinite_eq.symm.trans backFinite) ?_
  rw [limitCast, abs_div, abs_of_pos scalePositive, le_div_iff₀ scalePositive]
  exact scaledLarge

end Scale

/-! ## What does not look whole -/

theorem placesScale_zero_noisePlaces :
    placesScale 0 = 1 ∧ placesScale noisePlaces = 100000000 := by
  decide +kernel

theorem toRat_placesScale_zero : (placesScale 0).isFinite = true ∧ (placesScale 0).toRat = 1 := by
  rw [placesScale_zero_noisePlaces.1]
  have one := toRat_ofNat 1 (by decide)
  rwa [Nat.cast_one] at one

theorem toRat_placesScale_noisePlaces :
    (placesScale noisePlaces).isFinite = true ∧ (placesScale noisePlaces).toRat = 10 ^ 8 := by
  obtain ⟨finite, amount⟩ := toRat_ofNat 100000000 (by decide)
  rw [placesScale_zero_noisePlaces.2]
  exact ⟨finite, amount.trans (by norm_num)⟩

/-- Rounding to a whole number by way of places is finite. -/
theorem isFinite_roundTo_zero (finite : x.isFinite = true) : (x.roundTo 0).isFinite = true := by
  obtain ⟨scaleFinite, one⟩ := toRat_placesScale_zero
  refine isFinite_roundTo scaleFinite one.ge (isFinite_mul_of_le_one finite scaleFinite ?_)
  rw [one, abs_one]

/-- **What does not look whole is below `2 ^ 52`**, or too large to be looked at. -/
theorem abs_toRat_lt_of_not_looksWhole (finite : x.isFinite = true)
    (broken : x.looksWhole = false) (small : |x.toRat| * 10 ^ 8 < overflowBound) :
    |x.toRat| < 2 ^ 52 := by
  obtain ⟨scaleFinite, scale⟩ := toRat_placesScale_noisePlaces
  by_contra large
  have whole : x.looksWhole = true := by
    refine isWhole_roundTo scaleFinite (by rw [scale]; norm_num) ?_ (not_lt.mp large)
    rw [(mul_alike finite scaleFinite).isFinite_iff, scale, abs_mul]
    exact small
  rw [broken] at whole
  cases whole

/-! ## The scale -/

/-- One turn of the repeated squaring. -/
def tensStep (count : Nat) (state : Binary64 × Binary64) (bit : Nat) : Binary64 × Binary64 :=
  (if count.testBit bit then state.1 * state.2 else state.1, state.2 * state.2)

theorem squaredTens_eq (count : Nat) :
    squaredTens count = ((List.range 32).foldl (tensStep count) (1, 10)).1 := rfl

/-- The bits below one that may be selected leave room for it. -/
theorem mod_add_two_pow_le {count bits : Nat} (reached : 2 ^ bits ≤ count) :
    count % 2 ^ bits + 2 ^ bits ≤ count := by
  have divided := Nat.mod_add_div count (2 ^ bits)
  have quotient := Nat.mul_le_mul_left (2 ^ bits) (Nat.div_pos reached (Nat.two_pow_pos bits))
  omega

/-- What holds of the product and the square after some turns, where both are said of the power
of ten that they stand for. -/
structure Squaring (product square : Nat → Binary64 → Prop) (count bits : Nat)
    (state : Binary64 × Binary64) : Prop where
  /-- The product stands for the power that the bits so far select. -/
  product : product (count % 2 ^ bits) state.1
  /-- The square stands for the next power, as long as it may be selected. -/
  square : 2 ^ bits ≤ count → square (2 ^ bits) state.2

section Squaring

variable {product square : Nat → Binary64 → Prop} {count : Nat}
  (select : ∀ {power more : Nat} {x y : Binary64}, power + more ≤ count →
    product power x → square more y → product (power + more) (x * y))
  (double : ∀ {power : Nat} {y : Binary64}, power + power ≤ count →
    square power y → square (power + power) (y * y))
include select double

/-- **One turn keeps the powers**, if multiplications do as long as they stay within the count. -/
theorem Squaring.step {bits : Nat} {state : Binary64 × Binary64}
    (squaring : Squaring product square count bits state) :
    Squaring product square count (bits + 1) (tensStep count state bits) := by
  constructor
  · show product _ (if count.testBit bits then state.1 * state.2 else state.1)
    rw [Nat.mod_pow_succ, Nat.testBit_eq_decide_div_mod_eq]
    split
    · rename_i selected
      rw [of_decide_eq_true selected, Nat.mul_one]
      have reached : 2 ^ bits ≤ count :=
        Nat.ge_two_pow_of_testBit (Nat.testBit_eq_decide_div_mod_eq.trans selected)
      exact select (mod_add_two_pow_le reached) squaring.product (squaring.square reached)
    · rename_i unselected
      have cleared : count / 2 ^ bits % 2 = 0 := by
        have different := of_decide_eq_false (Bool.not_eq_true _ ▸ unselected)
        omega
      rw [cleared, Nat.mul_zero, Nat.add_zero]
      exact squaring.product
  · intro reached
    have doubled : 2 ^ bits + 2 ^ bits = 2 ^ (bits + 1) := by ring
    have square := squaring.square
      ((Nat.pow_le_pow_right two_pos (Nat.le_succ bits)).trans reached)
    rw [← doubled]
    exact double (doubled.trans_le reached) square

/-- **The repeated squaring stands for the powers of ten after any number of turns.** -/
theorem squaring_run (one : product 0 1) (ten : square 1 10) (bits : Nat) :
    Squaring product square count bits ((List.range bits).foldl (tensStep count) (1, 10)) := by
  induction bits with
  | zero =>
    constructor
    · rwa [pow_zero, Nat.mod_one]
    · intro _
      rwa [pow_zero]
  | succ bits ih =>
    rw [List.range_succ, List.foldl_append]
    exact ih.step select double

end Squaring

/-- How far one rounding may carry a number of one or more upward. -/
def growth : ℚ :=
  1 + 1 / 2 ^ 53

theorem one_le_growth : 1 ≤ growth := by
  rw [growth]
  norm_num

theorem growth_pos : 0 < growth :=
  zero_lt_one.trans_le one_le_growth

/-- Ten, with one rounding upward. -/
def roundedTen : ℚ :=
  10 * growth

theorem one_le_roundedTen : 1 ≤ roundedTen := by
  rw [roundedTen]
  linarith [one_le_growth]

/-- A finite number between one and a bound. -/
structure Between (x : Binary64) (bound : ℚ) : Prop where
  finite : x.isFinite = true
  above : 1 ≤ x.toRat
  below : x.toRat ≤ bound

/-- Rounding moves a number of one or more by one part in `2 ^ 53` of it. -/
theorem Alike.abs_sub_le_of_one_le {value : ℚ} (alike : Alike x (rounded value))
    (finite : x.isFinite = true) (above : 1 ≤ value) : |x.toRat - value| ≤ value / 2 ^ 53 := by
  have tiny : halfUnit ≤ |value| / 2 ^ 53 := by
    have half : halfUnit ≤ 1 / 2 ^ 53 := by
      rw [halfUnit]
      exact one_div_le_one_div_of_le (by norm_num) (pow_le_pow_right₀ one_le_two (by decide))
    refine half.trans (div_le_div_of_nonneg_right ?_ (by norm_num))
    exact above.trans (le_abs_self _)
  have error := abs_toRat_rounded_sub_le (alike.isFinite_eq.symm.trans finite)
  rwa [max_eq_right tiny, abs_of_nonneg (zero_le_one.trans above), ← alike.toRat_eq] at error

/-- **A product lies below the product of the bounds, but for one rounding.** -/
theorem Between.mul {xBound yBound : ℚ} (xBetween : Between x xBound) (yBetween : Between y yBound)
    (inside : xBound * yBound < overflowBound) : Between (x * y) (xBound * yBound * growth) := by
  have alike := mul_alike xBetween.finite yBetween.finite
  have exactAbove : 1 ≤ x.toRat * y.toRat :=
    one_le_mul_of_one_le_of_one_le xBetween.above yBetween.above
  have exactBelow : x.toRat * y.toRat ≤ xBound * yBound :=
    mul_le_mul xBetween.below yBetween.below (zero_le_one.trans yBetween.above)
      (zero_le_one.trans (xBetween.above.trans xBetween.below))
  have finite : (x * y).isFinite = true := by
    rw [alike.isFinite_iff, abs_of_nonneg (zero_le_one.trans exactAbove)]
    exact exactBelow.trans_lt inside
  have error := abs_le.mp (alike.abs_sub_le_of_one_le finite exactAbove)
  obtain ⟨oneFinite, one⟩ := toRat_ofNat 1 (by decide)
  rw [Nat.cast_one] at one
  refine ⟨finite, ?_, ?_⟩
  · rw [alike.toRat_eq, ← one]
    exact le_toRat_rounded (alike.isFinite_eq.symm.trans finite) oneFinite (one.trans_le exactAbove)
  · refine le_trans ?_ (mul_le_mul_of_nonneg_right exactBelow growth_pos.le)
    rw [growth]
    linarith [error.2]

/-- What holds of the product and the square after some turns. -/
structure Squared (count bits : Nat) (state : Binary64 × Binary64) : Prop where
  /-- The product is the power of ten that the bits so far select. -/
  product : Between state.1 (roundedTen ^ (count % 2 ^ bits))
  /-- The square is the next power, as long as it may be selected. -/
  square : 2 ^ bits ≤ count → Between state.2 (roundedTen ^ 2 ^ bits / growth)

variable {count : Nat} (inside : roundedTen ^ count < overflowBound)
include inside

theorem pow_roundedTen_lt {power : Nat} (le : power ≤ count) :
    roundedTen ^ power < overflowBound :=
  (pow_le_pow_right₀ one_le_roundedTen le).trans_lt inside

/-- **After any number of turns the product is the power of ten that the bits select.**  A square
is one rounding short of its bound, which leaves room for the next multiplication. -/
theorem squared_run (bits : Nat) :
    Squared count bits ((List.range bits).foldl (tensStep count) (1, 10)) := by
  have growthNonzero := growth_pos.ne'
  have powNonneg : ∀ power : Nat, 0 ≤ roundedTen ^ power := fun power =>
    pow_nonneg (zero_le_one.trans one_le_roundedTen) _
  have lower : ∀ power : Nat, roundedTen ^ power / growth ≤ roundedTen ^ power := fun power =>
    div_le_self (powNonneg power) one_le_growth
  obtain ⟨oneFinite, one⟩ := toRat_ofNat 1 (by decide)
  obtain ⟨tenFinite, ten⟩ := toRat_ofNat 10 (by decide)
  have run := @squaring_run (fun power x => Between x (roundedTen ^ power))
    (fun power x => Between x (roundedTen ^ power / growth)) count ?select ?double ?one ?ten bits
  case select =>
    intro power more x y le product square
    have room := pow_roundedTen_lt inside le
    rw [pow_add] at room
    have next := product.mul square
      ((mul_le_mul_of_nonneg_left (lower _) (powNonneg _)).trans_lt room)
    rwa [mul_div_assoc', div_mul_cancel₀ _ growthNonzero, ← pow_add] at next
  case double =>
    intro power y le square
    have room := pow_roundedTen_lt inside le
    rw [pow_add] at room
    have next := square.mul square
      ((mul_le_mul (lower _) (lower _) (div_nonneg (powNonneg _) growth_pos.le)
        (powNonneg _)).trans_lt room)
    rwa [← mul_div_assoc, div_mul_cancel₀ _ growthNonzero, div_mul_eq_mul_div, ← pow_add] at next
  case one =>
    rw [pow_zero]
    exact ⟨oneFinite, one.trans (by norm_num) |>.ge, one.trans (by norm_num) |>.le⟩
  case ten =>
    rw [pow_one, roundedTen, mul_div_cancel_right₀ _ growthNonzero]
    exact ⟨tenFinite, (by norm_num : (1 : ℚ) ≤ 10).trans_eq (ten.trans (by norm_num)).symm,
      (ten.trans (by norm_num)).le⟩
  exact ⟨run.product, run.square⟩

/-- The power of ten lies within its roundings. -/
theorem between_squaredTens (short : count < 2 ^ 32) :
    Between (squaredTens count) (roundedTen ^ count) := by
  have product := (squared_run inside 32).product
  rwa [Nat.mod_eq_of_lt short, ← squaredTens_eq] at product

omit inside

/-! ## Few places -/

/-- So many places leave room for every number that does not look whole. -/
def safePlaces : Nat := 292

theorem roundedTen_room {power : Nat}
    (room : 2 ^ 52 * (10 * (2 ^ 53 + 1)) ^ power * unitsPerOne < overflowCount * (2 ^ 53) ^ power) :
    2 ^ 52 * roundedTen ^ power < overflowBound := by
  have asQuotient : roundedTen = (10 * (2 ^ 53 + 1) : Nat) / (2 ^ 53 : Nat) := by
    rw [roundedTen, growth]
    norm_num
  have roomCast : ((2 ^ 52 * (10 * (2 ^ 53 + 1)) ^ power * unitsPerOne : Nat) : ℚ) <
      (overflowCount * (2 ^ 53) ^ power : Nat) := Nat.cast_lt.mpr room
  rw [asQuotient, div_pow, ← overflowCount_div, ← mul_div_assoc,
    div_lt_div_iff₀ (by positivity) unitsPerOne_cast_pos]
  push_cast at roomCast ⊢
  exact roomCast

theorem safePlaces_room : 2 ^ 52 * (10 * (2 ^ 53 + 1)) ^ safePlaces * unitsPerOne <
    overflowCount * (2 ^ 53) ^ safePlaces := by
  decide +kernel

/-- A count of places that fits is a word of itself. -/
theorem placesWord_eq {places : Nat} (short : places < 2 ^ 31) : placesWord places = places := by
  unfold placesWord
  rw [Nat.one_shiftLeft]
  exact Int.bmod_eq_of_le (by omega) (by omega)

theorem placesScale_eq {places : Nat} (few : places ≤ safePlaces) :
    placesScale places = squaredTens places := by
  have word := placesWord_eq (few.trans_lt (by decide))
  simp only [placesScale]
  rw [word, if_neg (by omega), Int.natAbs_natCast]

/-- **Up to so many places no number below `2 ^ 52` overflows.** -/
theorem isFinite_roundTo_of_small {places : Nat} (few : places ≤ safePlaces)
    (finite : x.isFinite = true) (small : |x.toRat| < 2 ^ 52) :
    (x.roundTo places).isFinite = true := by
  have room := roundedTen_room safePlaces_room
  have grown : roundedTen ^ places ≤ roundedTen ^ safePlaces :=
    pow_le_pow_right₀ one_le_roundedTen few
  have nonneg : 0 ≤ roundedTen ^ places := pow_nonneg (zero_le_one.trans one_le_roundedTen) _
  have inside : roundedTen ^ places < overflowBound := by linarith
  have between := between_squaredTens inside (few.trans_lt (by norm_num [safePlaces]))
  rw [← placesScale_eq few] at between
  refine isFinite_roundTo between.finite between.above ?_
  rw [(mul_alike finite between.finite).isFinite_iff, abs_mul,
    abs_of_nonneg (zero_le_one.trans between.above)]
  calc |x.toRat| * (placesScale places).toRat
      ≤ 2 ^ 52 * roundedTen ^ places :=
        mul_le_mul small.le between.below (zero_le_one.trans between.above) (by norm_num)
    _ ≤ 2 ^ 52 * roundedTen ^ safePlaces := mul_le_mul_of_nonneg_left grown (by norm_num)
    _ < overflowBound := room

end Quadratics.Binary64
