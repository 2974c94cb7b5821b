import Quadratics.Proofs.Binary64.Nearest
import Quadratics.Proofs.Binary64.Zeros

/-!
# Operations as exact results, rounded once

`rounded` takes a rational number to the binary64 number that it rounds to.  A sum,
a product and a quotient of finite numbers are each the rounding of the exact result,
but for the sign of a zero (`add_alike`, `mul_alike`, `div_alike`).

What is true of all operations is then said once, of `rounded`: it is finite below the
overflow bound (`isFinite_rounded`), it keeps what is a binary64 number already
(`toRat_rounded_toRat`), and it never turns two rational numbers around
(`toRat_rounded_mono`).
-/

namespace Quadratics.Binary64

set_option autoImplicit false

variable {x y z : Binary64}

/-! ## Exact values and comparison -/

theorem toRat_le_toRat_iff : x.toRat ≤ y.toRat ↔ x.units ≤ y.units := by
  rw [toRat, toRat, div_le_div_iff_of_pos_right unitsPerOne_cast_pos, Int.cast_le]

theorem toRat_inj : x.toRat = y.toRat ↔ x.units = y.units := by
  rw [toRat, toRat, div_left_inj' unitsPerOne_cast_pos.ne', Int.cast_inj]

/-- Finite numbers compare as their exact values do. -/
theorem le_iff_toRat (xFinite : x.isFinite = true) (yFinite : y.isFinite = true) :
    x ≤ y ↔ x.toRat ≤ y.toRat := by
  rw [le_iff xFinite yFinite, toRat_le_toRat_iff]

theorem lt_iff_toRat (xFinite : x.isFinite = true) (yFinite : y.isFinite = true) :
    x < y ↔ x.toRat < y.toRat := by
  rw [lt_iff xFinite yFinite, ← not_le, ← not_le, toRat_le_toRat_iff]

@[simp]
theorem toRat_neg (x : Binary64) : (-x).toRat = -x.toRat := by
  rw [toRat, toRat, units_neg, Int.cast_neg, neg_div]

@[simp]
theorem toRat_abs (x : Binary64) : x.abs.toRat = |x.toRat| := by
  rw [abs_toRat, toRat, units_abs, Int.cast_natCast]

@[simp]
theorem toRat_zero : (0 : Binary64).toRat = 0 := by
  rw [toRat, vanishes_zero.units_eq, Int.cast_zero, zero_div]

theorem Alike.toRat_eq (alike : Alike x y) : x.toRat = y.toRat := by
  rcases alike with rfl | ⟨xVanishes, yVanishes⟩
  · rfl
  · rw [toRat_inj, xVanishes.units_eq, yVanishes.units_eq]

/-- The zeros are the finite numbers whose exact value is zero. -/
theorem vanishes_iff_toRat (finite : x.isFinite = true) : x.Vanishes ↔ x.toRat = 0 := by
  rw [← toRat_zero, toRat_inj, vanishes_zero.units_eq, ← Int.natAbs_eq_zero, natAbs_units]
  exact and_iff_right finite

@[simp]
theorem toRat_add_zero (x : Binary64) : (x + 0).toRat = x.toRat :=
  (alike_add_zero x).toRat_eq

theorem toRat_nonneg (unsigned : x.negative = false) : 0 ≤ x.toRat := by
  rw [toRat_eq, unsigned]
  exact quotient_nonneg x.magnitude 1 |>.trans_eq (by rw [Nat.cast_one, div_one]; rfl)

theorem abs_toRat_lt (finite : x.isFinite = true) : |x.toRat| < overflowBound := by
  rw [abs_toRat, ← overflowCount_div, div_lt_div_iff_of_pos_right unitsPerOne_cast_pos, Nat.cast_lt]
  exact magnitude_lt_overflowCount finite

/-! ## Quotients of the same value -/

theorem nearestEven_scale {numerator denominator factor : Nat} (positive : 0 < factor) :
    nearestEven (numerator * factor) (denominator * factor) =
      nearestEven numerator denominator := by
  simp only [nearestEven]
  rw [Nat.mul_div_mul_right _ _ positive, Nat.mul_mod_mul_right, ← Nat.mul_assoc]
  simp only [Nat.mul_lt_mul_right positive]

/-- A quotient may be expanded by any factor. -/
theorem ofQuotient_scale (negative : Bool) (numerator denominator : Nat) {factor : Nat}
    (positive : 0 < factor) :
    ofQuotient negative (numerator * factor) (denominator * factor) =
      ofQuotient negative numerator denominator := by
  have dropped : droppedBits (numerator * factor) (denominator * factor) =
      droppedBits numerator denominator := by
    rw [droppedBits, Nat.mul_div_mul_right _ _ positive, droppedBits]
  have shifted : ∀ exponent,
      (denominator * factor) <<< exponent = denominator <<< exponent * factor :=
    fun exponent => by rw [Nat.shiftLeft_eq, Nat.shiftLeft_eq, Nat.mul_right_comm]
  simp only [ofQuotient]
  rw [dropped, shifted, nearestEven_scale positive]

/-- Rounding depends on the value of a quotient alone. -/
theorem ofQuotient_congr (negative : Bool) {numerator denominator numerator' denominator' : Nat}
    (positive : 0 < denominator) (positive' : 0 < denominator')
    (same : numerator * denominator' = numerator' * denominator) :
    ofQuotient negative numerator denominator = ofQuotient negative numerator' denominator' := by
  rw [← ofQuotient_scale negative numerator denominator positive', same,
    Nat.mul_comm denominator denominator', ofQuotient_scale negative _ _ positive]

theorem vanishes_ofQuotient_zero (negative : Bool) {denominator : Nat}
    (positive : 0 < denominator) : (ofQuotient negative 0 denominator).Vanishes := by
  have exact := @ofQuotient_exact negative 0 0 denominator (by decide) positive
  rw [Nat.zero_shiftLeft, Nat.zero_mul] at exact
  rw [exact]
  exact ⟨rfl, rfl⟩

/-! ## Rounding a rational number -/

/-- The number that a rational number rounds to. -/
def rounded (value : ℚ) : Binary64 :=
  ofQuotient (decide (value < 0)) (value.num.natAbs * unitsPerOne) value.den

theorem natAbs_num_div_den (value : ℚ) : (value.num.natAbs : ℚ) / value.den = |value| := by
  conv_rhs => rw [← Rat.num_div_den value]
  rw [abs_div, Nat.cast_natAbs, Int.cast_abs, Nat.abs_cast]

theorem signedRat_abs (value : ℚ) : signedRat (decide (value < 0)) |value| = value := by
  by_cases negative : value < 0
  · rw [decide_eq_true negative, abs_of_neg negative]
    show -(-value) = value
    ring
  · rw [decide_eq_false negative, abs_of_nonneg (not_lt.mp negative)]
    rfl

theorem signedRat_num_div_den (value : ℚ) :
    signedRat (decide (value < 0))
      ((value.num.natAbs * unitsPerOne : Nat) / value.den / unitsPerOne) = value := by
  rw [Nat.cast_mul, mul_div_right_comm, mul_div_cancel_right₀ _ unitsPerOne_cast_pos.ne',
    natAbs_num_div_den, signedRat_abs]

/-- **The number that a rational number rounds to is its rounding.** -/
theorem roundsTo_rounded (value : ℚ) : RoundsTo value (rounded value) := by
  have rounds := @roundsTo_ofQuotient (decide (value < 0)) (value.num.natAbs * unitsPerOne) _
    value.den_pos
  rwa [signedRat_num_div_den] at rounds

/-- A rational number rounds to a finite number just below the overflow bound. -/
theorem isFinite_rounded {value : ℚ} :
    (rounded value).isFinite = true ↔ |value| < overflowBound := by
  rcases roundsTo_rounded value with ⟨inside, finite, -, -⟩ | ⟨outside, infinite⟩
  · exact iff_of_true finite inside
  · rw [infinite]
    exact iff_of_false Bool.false_ne_true (not_lt.mpr outside)

theorem Alike.isFinite_iff {value : ℚ} (alike : Alike x (rounded value)) :
    x.isFinite = true ↔ |value| < overflowBound := by
  rw [alike.isFinite_eq, isFinite_rounded]

theorem Alike.isFinite_eq_false_iff {value : ℚ} (alike : Alike x (rounded value)) :
    x.isFinite = false ↔ overflowBound ≤ |value| := by
  rw [← Bool.not_eq_true, alike.isFinite_iff, not_lt]

/-- What a positive number beyond the bound is rounded to. -/
theorem Alike.eq_infinity {value : ℚ} (alike : Alike x (rounded value))
    (infinite : x.isFinite = false) (positive : 0 < value) : x = .infinity false := by
  rcases alike with rfl | ⟨vanishes, -⟩
  · cases roundsTo_rounded value with
    | near _ fits =>
      rw [fits] at infinite
      cases infinite
    | far _ isInfinity => rw [isInfinity, decide_eq_false (not_lt.mpr positive.le)]
  · rw [vanishes.1] at infinite
    cases infinite

/-- No finite number is nearer to a rational number than what it rounds to. -/
theorem abs_rounded_sub_le {value : ℚ} (finite : (rounded value).isFinite = true)
    (other : x.isFinite = true) : |(rounded value).toRat - value| ≤ |x.toRat - value| := by
  rcases roundsTo_rounded value with ⟨-, -, nearest, -⟩ | ⟨-, infinite⟩
  · exact nearest x other
  · rw [infinite] at finite
    cases finite

/-- **Rounding keeps what is a binary64 number already.** -/
theorem toRat_rounded_toRat (finite : x.isFinite = true) :
    (rounded x.toRat).isFinite = true ∧ (rounded x.toRat).toRat = x.toRat := by
  have inside := isFinite_rounded.mpr (abs_toRat_lt finite)
  refine ⟨inside, sub_eq_zero.mp (abs_eq_zero.mp (le_antisymm ?_ (abs_nonneg _)))⟩
  simpa only [sub_self, abs_zero] using abs_rounded_sub_le inside finite

/-- What is nearer to the upper of two numbers is not below their middle. -/
theorem middle_le {lower upper value : ℚ} (less : lower < upper)
    (nearer : |upper - value| ≤ |lower - value|) : lower + upper ≤ 2 * value := by
  rcases abs_cases (upper - value) with ⟨same, sign⟩ | ⟨same, sign⟩ <;>
    rcases abs_cases (lower - value) with ⟨same', sign'⟩ | ⟨same', sign'⟩ <;> linarith

theorem le_middle {lower upper value : ℚ} (less : lower < upper)
    (nearer : |lower - value| ≤ |upper - value|) : 2 * value ≤ lower + upper := by
  rcases abs_cases (upper - value) with ⟨same, sign⟩ | ⟨same, sign⟩ <;>
    rcases abs_cases (lower - value) with ⟨same', sign'⟩ | ⟨same', sign'⟩ <;> linarith

/-- **Rounding turns no two rational numbers around.** -/
theorem toRat_rounded_mono {value other : ℚ} (le : value ≤ other)
    (finite : (rounded value).isFinite = true) (otherFinite : (rounded other).isFinite = true) :
    (rounded value).toRat ≤ (rounded other).toRat := by
  rcases eq_or_lt_of_le le with rfl | less
  · exact le_rfl
  · by_contra turned
    -- Both would have to round across the middle of their roundings.
    have above := middle_le (not_le.mp turned) (abs_rounded_sub_le finite otherFinite)
    have below := le_middle (not_le.mp turned) (abs_rounded_sub_le otherFinite finite)
    linarith

theorem toRat_rounded_le {value : ℚ} (finite : (rounded value).isFinite = true)
    (bound : x.isFinite = true) (le : value ≤ x.toRat) : (rounded value).toRat ≤ x.toRat := by
  obtain ⟨boundFinite, same⟩ := toRat_rounded_toRat bound
  exact (toRat_rounded_mono le finite boundFinite).trans_eq same

theorem le_toRat_rounded {value : ℚ} (finite : (rounded value).isFinite = true)
    (bound : x.isFinite = true) (le : x.toRat ≤ value) : x.toRat ≤ (rounded value).toRat := by
  obtain ⟨boundFinite, same⟩ := toRat_rounded_toRat bound
  exact same.symm.trans_le (toRat_rounded_mono le boundFinite finite)

/-- Two roundings compare as the rational numbers do, but for the signs of zeros. -/
theorem Alike.toRat_mono {value other : ℚ} (xAlike : Alike x (rounded value))
    (yAlike : Alike y (rounded other)) (xFinite : x.isFinite = true) (yFinite : y.isFinite = true)
    (le : value ≤ other) : x.toRat ≤ y.toRat := by
  rw [xAlike.toRat_eq, yAlike.toRat_eq]
  exact toRat_rounded_mono le (xAlike.isFinite_eq.symm.trans xFinite)
    (yAlike.isFinite_eq.symm.trans yFinite)

theorem alike_rounded_zero : Alike 0 (rounded 0) :=
  .inr ⟨vanishes_zero, vanishes_ofQuotient_zero _ Nat.one_pos⟩

theorem Alike.toRat_nonneg {value : ℚ} (alike : Alike x (rounded value))
    (finite : x.isFinite = true) (nonneg : 0 ≤ value) : 0 ≤ x.toRat :=
  toRat_zero.symm.trans_le (alike_rounded_zero.toRat_mono alike vanishes_zero.1 finite nonneg)

theorem Alike.toRat_nonpos {value : ℚ} (alike : Alike x (rounded value))
    (finite : x.isFinite = true) (nonpos : value ≤ 0) : x.toRat ≤ 0 :=
  (alike.toRat_mono alike_rounded_zero finite vanishes_zero.1 nonpos).trans_eq toRat_zero

/-! ## Operands of finite results -/

/-- A finite sum has finite summands. -/
theorem isFinite_of_add (finite : (x + y).isFinite = true) :
    x.isFinite = true ∧ y.isFinite = true := by
  rw [add_def] at finite
  cases x with
  | finite =>
    cases y with
    | finite => exact ⟨rfl, rfl⟩
    | infinity | nan => cases finite
  | infinity =>
    cases y with
    | infinity =>
      simp only [Binary64.add] at finite
      split at finite <;> cases finite
    | finite | nan => cases finite
  | nan => cases y <;> cases finite

/-- A finite difference has finite operands. -/
theorem isFinite_of_sub (finite : (x - y).isFinite = true) :
    x.isFinite = true ∧ y.isFinite = true := by
  rw [sub_def] at finite
  obtain ⟨xFinite, yFinite⟩ := isFinite_of_add finite
  exact ⟨xFinite, (isFinite_neg y).symm.trans yFinite⟩

/-- A finite product has finite factors. -/
theorem isFinite_of_mul (finite : (x * y).isFinite = true) :
    x.isFinite = true ∧ y.isFinite = true := by
  change (mul x y).isFinite = true at finite
  cases x with
  | finite =>
    cases y with
    | finite => exact ⟨rfl, rfl⟩
    | infinity =>
      simp only [mul] at finite
      split at finite <;> cases finite
    | nan => cases finite
  | infinity =>
    cases y with
    | finite =>
      simp only [mul] at finite
      split at finite <;> cases finite
    | infinity | nan => cases finite
  | nan => cases y <;> cases finite

/-- A finite quotient has a finite dividend. -/
theorem isFinite_of_div (finite : (x / y).isFinite = true) : x.isFinite = true := by
  change (div x y).isFinite = true at finite
  match x, y, finite with
  | .finite _ _ _ _, _, _ => rfl

/-! ## Operations -/

/-- What a quotient rounds to is the rounding of its value, but for the sign of a zero. -/
theorem ofQuotient_alike (negative : Bool) (numerator : Nat) {denominator : Nat}
    (positive : 0 < denominator) :
    Alike (ofQuotient negative numerator denominator)
      (rounded (signedRat negative ((numerator : ℚ) / denominator / unitsPerOne))) := by
  have unitPositive := unitsPerOne_cast_pos
  have denominatorPositive : (0 : ℚ) < denominator := Nat.cast_pos.mpr positive
  have magnitudeOf := abs_signedRat negative ((numerator : ℚ) / denominator / unitsPerOne)
  have signOf : numerator ≠ 0 →
      decide (signedRat negative ((numerator : ℚ) / denominator / unitsPerOne) < 0) = negative := by
    intro nonzero
    have quotientPositive : (0 : ℚ) < (numerator : ℚ) / denominator / unitsPerOne :=
      div_pos (div_pos (Nat.cast_pos.mpr (Nat.pos_of_ne_zero nonzero)) denominatorPositive)
        unitPositive
    cases negative
    · exact decide_eq_false (not_lt.mpr quotientPositive.le)
    · exact decide_eq_true (neg_neg_of_pos quotientPositive)
  rw [abs_of_nonneg (quotient_nonneg numerator denominator)] at magnitudeOf
  generalize signedRat negative ((numerator : ℚ) / denominator / unitsPerOne) = value at *
  have same : value.num.natAbs * unitsPerOne * denominator = numerator * value.den := by
    have denPositive : (0 : ℚ) < value.den := Nat.cast_pos.mpr value.den_pos
    rw [← natAbs_num_div_den, div_eq_div_iff denPositive.ne' unitPositive.ne', mul_comm,
      div_mul_eq_mul_div, eq_div_iff denominatorPositive.ne'] at magnitudeOf
    rw [Nat.mul_comm _ unitsPerOne]
    exact_mod_cast magnitudeOf
  unfold rounded
  rw [ofQuotient_congr _ value.den_pos positive same]
  rcases Nat.eq_zero_or_pos numerator with rfl | nonzero
  · exact .inr ⟨vanishes_ofQuotient_zero _ positive, vanishes_ofQuotient_zero _ positive⟩
  · rw [signOf nonzero.ne']
    exact .refl _

/-- A larger quotient does not round to a smaller magnitude. -/
theorem magnitude_ofQuotient_mono {negative : Bool} {numerator other denominator : Nat}
    (positive : 0 < denominator) (le : numerator ≤ other)
    (finite : (ofQuotient negative other denominator).isFinite = true) :
    (ofQuotient negative numerator denominator).isFinite = true ∧
      (ofQuotient negative numerator denominator).magnitude ≤
        (ofQuotient negative other denominator).magnitude := by
  have unsigned : ∀ {count : Nat}, count < overflowCount * denominator →
      (ofQuotient false count denominator).isFinite = true := (isFinite_ofQuotient positive).mpr
  have inside := (isFinite_ofQuotient positive).mp finite
  have smaller := le.trans_lt inside
  have order := (ofQuotient_alike false numerator positive).toRat_mono
    (ofQuotient_alike false other positive) (unsigned smaller) (unsigned inside)
    (div_le_div_of_nonneg_right
      (div_le_div_of_nonneg_right (Nat.cast_le.mpr le) (Nat.cast_nonneg _)) (Nat.cast_nonneg _))
  rw [toRat_eq, toRat_eq, negative_ofQuotient, negative_ofQuotient,
    magnitude_ofQuotient (unsigned smaller), magnitude_ofQuotient (unsigned inside)] at order
  have isFinite : (ofQuotient negative numerator denominator).isFinite = true :=
    (isFinite_ofQuotient positive).mpr smaller
  refine ⟨isFinite, ?_⟩
  rw [magnitude_ofQuotient isFinite, magnitude_ofQuotient finite]
  exact_mod_cast (div_le_div_iff_of_pos_right unitsPerOne_cast_pos).mp order

/-- **What lies between two quotients that round to one number rounds to it too.** -/
theorem ofQuotient_between {negative : Bool} {lower middle upper denominator : Nat}
    (positive : 0 < denominator) (finite : x.isFinite = true) (above : lower ≤ middle)
    (below : middle ≤ upper) (lowerSame : ofQuotient negative lower denominator = x)
    (upperSame : ofQuotient negative upper denominator = x) :
    ofQuotient negative middle denominator = x := by
  obtain ⟨middleFinite, noMore⟩ := magnitude_ofQuotient_mono positive below (upperSame ▸ finite)
  obtain ⟨-, noLess⟩ := magnitude_ofQuotient_mono positive above middleFinite
  rw [lowerSame] at noLess
  rw [upperSame] at noMore
  refine eq_of_magnitude_eq middleFinite finite ?_ (Nat.le_antisymm noMore noLess)
  rw [negative_ofQuotient, ← upperSame, negative_ofQuotient]

/-- **A sum is the exact sum, rounded.** -/
theorem add_alike (xFinite : x.isFinite = true) (yFinite : y.isFinite = true) :
    Alike (x + y) (rounded (x.toRat + y.toRat)) := by
  rw [add_eq_addFinite xFinite yFinite]
  simp only [addFinite]
  have alike := fun negative => ofQuotient_alike negative (x.units + y.units).natAbs Nat.one_pos
  simp only [Nat.cast_one, div_one, Nat.cast_natAbs, Int.cast_abs] at alike
  rw [toRat, toRat, ← add_div, ← Int.cast_add]
  generalize x.units + y.units = sum at *
  by_cases zero : sum = 0
  · subst zero
    refine .inr ⟨vanishes_ofQuotient_zero _ Nat.one_pos, ?_⟩
    have alikeZero := alike false
    rw [Int.cast_zero, abs_zero] at alikeZero
    rw [Int.cast_zero]
    exact alikeZero.vanishes_iff.mp (vanishes_ofQuotient_zero _ Nat.one_pos)
  · rw [if_neg zero]
    have same :
        signedRat (decide (sum < 0)) (|(sum : ℚ)| / unitsPerOne) = (sum : ℚ) / unitsPerOne := by
      have signs : decide (sum < 0) = decide ((sum : ℚ) / unitsPerOne < 0) := by
        rw [decide_eq_decide, div_lt_iff₀ unitsPerOne_cast_pos, zero_mul]
        exact Int.cast_lt_zero.symm
      rw [signs, ← abs_of_pos unitsPerOne_cast_pos, ← abs_div, abs_of_pos unitsPerOne_cast_pos,
        signedRat_abs]
    exact same ▸ alike (decide (sum < 0))

/-- **A difference is the exact difference, rounded.** -/
theorem sub_alike (xFinite : x.isFinite = true) (yFinite : y.isFinite = true) :
    Alike (x - y) (rounded (x.toRat - y.toRat)) := by
  rw [sub_def, sub_eq_add_neg, ← toRat_neg]
  exact add_alike xFinite ((isFinite_neg y).trans yFinite)

theorem signedRat_mul (negative other : Bool) (value value' : ℚ) :
    signedRat negative value * signedRat other value' =
      signedRat (negative != other) (value * value') := by
  cases negative <;> cases other <;> simp [signedRat]

theorem signedRat_div (negative other : Bool) (value value' : ℚ) :
    signedRat negative value / signedRat other value' =
      signedRat (negative != other) (value / value') := by
  cases negative <;> cases other <;> simp [signedRat, neg_div, div_neg]

/-- **A product is the exact product, rounded.** -/
theorem mul_alike (xFinite : x.isFinite = true) (yFinite : y.isFinite = true) :
    Alike (x * y) (rounded (x.toRat * y.toRat)) := by
  have alike := ofQuotient_alike (x.negative != y.negative) (x.magnitude * y.magnitude)
    unitsPerOne_pos
  rw [mul_eq_ofQuotient xFinite yFinite, toRat_eq, toRat_eq, signedRat_mul, div_mul_div_comm,
    ← div_div]
  exact_mod_cast alike

theorem div_eq_ofQuotient (xFinite : x.isFinite = true) (yFinite : y.isFinite = true)
    (nonzero : y.magnitude ≠ 0) :
    x / y = ofQuotient (x.negative != y.negative) (x.magnitude * unitsPerOne) y.magnitude := by
  change div x y = _
  match x, y, xFinite, yFinite with
  | .finite _ _ _ _, .finite _ _ _ _, _, _ => rw [div, if_neg nonzero]

/-- **A quotient is the exact quotient, rounded.** -/
theorem div_alike (xFinite : x.isFinite = true) (yFinite : y.isFinite = true)
    (nonzero : ¬ y.Vanishes) : Alike (x / y) (rounded (x.toRat / y.toRat)) := by
  have magnitudeNonzero : y.magnitude ≠ 0 := fun zero => nonzero ⟨yFinite, zero⟩
  have alike := ofQuotient_alike (x.negative != y.negative) (x.magnitude * unitsPerOne)
    (Nat.pos_of_ne_zero magnitudeNonzero)
  rw [div_eq_ofQuotient xFinite yFinite magnitudeNonzero, toRat_eq, toRat_eq y, signedRat_div,
    div_div_div_cancel_right₀ unitsPerOne_cast_pos.ne']
  rwa [Nat.cast_mul, mul_div_right_comm, mul_div_cancel_right₀ _ unitsPerOne_cast_pos.ne'] at alike

/-- A sum grows with its second summand. -/
theorem toRat_add_mono (xFinite : (z + x).isFinite = true) (yFinite : (z + y).isFinite = true)
    (le : x.toRat ≤ y.toRat) : (z + x).toRat ≤ (z + y).toRat := by
  have xAlike := add_alike (isFinite_of_add xFinite).1 (isFinite_of_add xFinite).2
  have yAlike := add_alike (isFinite_of_add yFinite).1 (isFinite_of_add yFinite).2
  exact xAlike.toRat_mono yAlike xFinite yFinite (add_le_add_right le z.toRat)

/-- A quotient is finite or not whatever the sign of a vanishing dividend. -/
theorem isFinite_div_congr (alike : Alike x y)
    (xFinite : x.isFinite = true) (zFinite : z.isFinite = true) (nonzero : ¬ z.Vanishes) :
    (x / z).isFinite = (y / z).isFinite := by
  have yFinite := alike.isFinite_eq.symm.trans xFinite
  rw [(div_alike xFinite zFinite nonzero).isFinite_eq, alike.toRat_eq,
    (div_alike yFinite zFinite nonzero).isFinite_eq]

/-- Finite quotients by one divisor compare as the exact quotients do. -/
theorem toRat_div_mono (zFinite : z.isFinite = true) (nonzero : ¬ z.Vanishes)
    (xFinite : (x / z).isFinite = true) (yFinite : (y / z).isFinite = true)
    (le : x.toRat / z.toRat ≤ y.toRat / z.toRat) : (x / z).toRat ≤ (y / z).toRat := by
  have xAlike := div_alike (isFinite_of_div xFinite) zFinite nonzero
  have yAlike := div_alike (isFinite_of_div yFinite) zFinite nonzero
  exact xAlike.toRat_mono yAlike xFinite yFinite le

/-- A product with a factor of one at most in magnitude is finite. -/
theorem isFinite_mul_of_le_one (xFinite : x.isFinite = true) (yFinite : y.isFinite = true)
    (small : |y.toRat| ≤ 1) : (x * y).isFinite = true := by
  rw [(mul_alike xFinite yFinite).isFinite_iff, abs_mul]
  exact (mul_le_of_le_one_right (abs_nonneg _) small).trans_lt (abs_toRat_lt xFinite)

/-- The root of a positive number has no sign. -/
theorem negative_sqrt (finite : x.isFinite = true) (positive : 0 < x) :
    x.sqrt.negative = false := by
  rw [lt_iff vanishes_zero.1 finite, vanishes_zero.units_eq] at positive
  match x, finite with
  | .finite negative significand exponent canonical, _ =>
    have unsigned : negative = false := by
      cases negative
      · rfl
      · exact absurd positive (by simp only [units, signed, Binary64.negative]; simp)
    have nonzero : magnitude (.finite negative significand exponent canonical) ≠ 0 := by
      intro zero
      rw [units, zero] at positive
      cases negative <;> simp [signed] at positive
    subst unsigned
    simp only [sqrt, if_neg nonzero, Bool.false_eq_true, if_false, sqrtCount, negative_ofScaled]

/-- The larger of two finite numbers has the larger exact value. -/
theorem toRat_larger (xFinite : x.isFinite = true) (yFinite : y.isFinite = true) :
    (larger x y).isFinite = true ∧ (larger x y).toRat = max x.toRat y.toRat := by
  have number : ¬ x.isNaN = true := by
    match x, xFinite with
    | .finite _ _ _ _, _ => exact Bool.false_ne_true
  rw [larger, if_neg number]
  split
  · rename_i below
    exact ⟨yFinite, (max_eq_right ((lt_iff_toRat xFinite yFinite).mp below).le).symm⟩
  · rename_i above
    rw [lt_iff_toRat xFinite yFinite, not_lt] at above
    exact ⟨xFinite, (max_eq_left above).symm⟩

end Quadratics.Binary64
