import Quadratics.Proofs.Binary64.Precision

/-!
# Opposite values

Two values are opposite when one is the other with the sign changed, but for the sign
of a zero (`Opposite`).  Rounding goes to the nearest number, so it favours no sign, and
every operation keeps opposites: sums of opposites are opposite (`Opposite.add`), and
products and quotients of opposites are alike (`Opposite.mul`, `Opposite.div`).

The value of an operation without a result has a sign of its own, which does not change
with those of the operands.  So opposites are numbers, and the summands of `Opposite.add`
are kept from being infinities of different signs.
-/

namespace Quadratics.Binary64

set_option autoImplicit false

variable {x y x' y' : Binary64}

/-! ## Numbers -/

theorem isNaN_eq_false (finite : x.isFinite = true) : x.isNaN = false := by
  match x, finite with
  | .finite _ _ _ _, _ => rfl

theorem isNaN_ofQuotient (negative : Bool) (numerator denominator : Nat) :
    (ofQuotient negative numerator denominator).isNaN = false := by
  cases finite : (ofQuotient negative numerator denominator).isFinite
  · rw [ofQuotient_eq_infinity finite]
    rfl
  · exact isNaN_eq_false finite

/-- A finite value added to a number gives a number. -/
theorem isNaN_add (number : x.isNaN = false) (finite : y.isFinite = true) :
    (x + y).isNaN = false := by
  match x, y, number, finite with
  | .finite _ _ _ _, .finite _ _ _ _, _, _ =>
    rw [add_eq_addFinite rfl rfl, addFinite]
    exact isNaN_ofQuotient _ _ _
  | .infinity _, .finite _ _ _ _, _, _ => rfl

theorem isNaN_mul (finite : x.isFinite = true) (nonzero : ¬ x.Vanishes) (number : y.isNaN = false) :
    (x * y).isNaN = false := by
  match x, y, finite, number with
  | .finite _ _ _ _, .finite _ _ _ _, _, _ =>
    rw [mul_eq_ofQuotient rfl rfl]
    exact isNaN_ofQuotient _ _ _
  | .finite _ _ _ _, .infinity _, finite, _ =>
    change (mul _ _).isNaN = false
    rw [mul, if_neg fun zero => nonzero ⟨finite, zero⟩]
    rfl

/-! ## Operations on negated values -/

/-- A sum of negated values is the negated sum, but for the sign of a zero. -/
theorem neg_add_neg (finite : y.isFinite = true) : Alike (-x + -y) (-(x + y)) := by
  match x, y, finite with
  | .finite negative significand exponent canonical, .finite _ _ _ _, finite =>
    rw [add_eq_addFinite rfl rfl, add_eq_addFinite rfl rfl]
    simp only [addFinite]
    rw [neg_ofQuotient, units_neg, units_neg, ← Int.neg_add, Int.natAbs_neg]
    generalize units _ + units _ = sum
    by_cases zero : sum = 0
    · subst zero
      exact .inr ⟨vanishes_ofQuotient_zero _ Nat.one_pos, vanishes_ofQuotient_zero _ Nat.one_pos⟩
    · rw [if_neg (Int.neg_ne_zero.mpr zero), if_neg zero]
      have signs : decide (-sum < 0) = !decide (sum < 0) := by
        rw [← decide_not, decide_eq_decide]
        omega
      rw [signs]
      exact .refl _
  | .infinity _, .finite _ _ _ _, _ => exact .refl _
  | .nan _, .finite _ _ _ _, _ => exact .refl _

/-- The signs of two factors cancel. -/
theorem neg_mul_neg (xNumber : x.isNaN = false) (yNumber : y.isNaN = false) : -x * -y = x * y := by
  change mul (neg x) (neg y) = mul x y
  match x, y, xNumber, yNumber with
  | .finite _ _ _ _, .finite _ _ _ _, _, _ => simp [mul, neg, negative, magnitude]
  | .finite _ _ _ _, .infinity _, _, _ => simp [mul, neg, negative, magnitude]
  | .infinity _, .finite _ _ _ _, _, _ => simp [mul, neg, negative, magnitude]
  | .infinity _, .infinity _, _, _ => simp [mul, neg, negative]

/-- The signs of a dividend and a divisor cancel. -/
theorem neg_div_neg (xNumber : x.isNaN = false) (yNumber : y.isNaN = false) : -x / -y = x / y := by
  change div (neg x) (neg y) = div x y
  match x, y, xNumber, yNumber with
  | .finite _ _ _ _, .finite _ _ _ _, _, _ => simp [div, neg, negative, magnitude]
  | .finite _ _ _ _, .infinity _, _, _ => simp [div, neg, negative]
  | .infinity _, .finite _ _ _ _, _, _ => simp [div, neg, negative]
  | .infinity _, .infinity _, _, _ => simp [div, neg]

/-- The sign of a factor may be taken out of a product. -/
theorem mul_neg (finite : x.isFinite = true) (nonzero : ¬ x.Vanishes) (number : y.isNaN = false) :
    x * -y = -(x * y) := by
  match x, y, finite, number with
  | .finite _ _ _ _, .finite _ _ _ _, _, _ =>
    rw [mul_eq_ofQuotient rfl rfl, mul_eq_ofQuotient rfl rfl, neg_ofQuotient, negative_neg,
      magnitude_neg, Bool.bne_not]
  | .finite _ _ _ _, .infinity _, finite, _ =>
    change mul _ (neg _) = neg (mul _ _)
    rw [neg, mul, mul, if_neg fun zero => nonzero ⟨finite, zero⟩,
      if_neg fun zero => nonzero ⟨finite, zero⟩]
    exact congrArg infinity (Bool.bne_not _ _)

/-- The sign of a divisor may be taken out of a quotient. -/
theorem div_neg (xFinite : x.isFinite = true) (yFinite : y.isFinite = true)
    (nonzero : ¬ y.Vanishes) : x / -y = -(x / y) := by
  have magnitudeNonzero : y.magnitude ≠ 0 := fun zero => nonzero ⟨yFinite, zero⟩
  rw [div_eq_ofQuotient xFinite yFinite magnitudeNonzero,
    div_eq_ofQuotient xFinite ((isFinite_neg y).trans yFinite)
      (by rw [magnitude_neg]; exact magnitudeNonzero),
    neg_ofQuotient, negative_neg, magnitude_neg, Bool.bne_not]

/-! ## Operands that vanish -/

theorem vanishes_mul (xFinite : x.isFinite = true) (yFinite : y.isFinite = true)
    (zero : x.magnitude * y.magnitude = 0) : (x * y).Vanishes := by
  rw [mul_eq_ofQuotient xFinite yFinite, zero]
  exact vanishes_ofQuotient_zero _ unitsPerOne_pos

/-- A vanishing number divided by one that does not vanish. -/
theorem vanishes_div (vanishes : x.Vanishes) (number : y.isNaN = false) (nonzero : ¬ y.Vanishes) :
    (x / y).Vanishes := by
  match y, number with
  | .finite negative significand exponent canonical, _ =>
    have positive : magnitude (.finite negative significand exponent canonical) ≠ 0 :=
      fun zero => nonzero ⟨rfl, zero⟩
    rw [div_eq_ofQuotient vanishes.1 rfl positive, vanishes.2, Nat.zero_mul]
    exact vanishes_ofQuotient_zero _ (Nat.pos_of_ne_zero positive)
  | .infinity _, _ =>
    match x, vanishes with
    | .finite _ _ _ _, _ =>
      show (div _ _).Vanishes
      rw [div]
      exact vanishes_ofQuotient_zero _ Nat.one_pos

namespace Alike

/-- **Products respect it.** -/
theorem mul (first : Alike x x') (second : Alike y y') : Alike (x * y) (x' * y') := by
  rcases first with rfl | ⟨vanishes, vanishes'⟩ <;>
    rcases second with rfl | ⟨yVanishes, yVanishes'⟩
  · exact .refl _
  · match x with
    | .finite _ _ _ _ =>
      exact .inr ⟨vanishes_mul rfl yVanishes.1 (by rw [yVanishes.2, Nat.mul_zero]),
        vanishes_mul rfl yVanishes'.1 (by rw [yVanishes'.2, Nat.mul_zero])⟩
    | .infinity _ =>
      -- The product of an infinity and a zero has no result, whatever their signs.
      match y, y', yVanishes, yVanishes' with
      | .finite _ _ _ _, .finite _ _ _ _, yVanishes, yVanishes' =>
        exact .inl ((if_pos yVanishes.2).trans (if_pos yVanishes'.2).symm)
    | .nan _ =>
      match y, y', yVanishes, yVanishes' with
      | .finite _ _ _ _, .finite _ _ _ _, _, _ => exact .refl _
  · match y with
    | .finite _ _ _ _ =>
      exact .inr ⟨vanishes_mul vanishes.1 rfl (by rw [vanishes.2, Nat.zero_mul]),
        vanishes_mul vanishes'.1 rfl (by rw [vanishes'.2, Nat.zero_mul])⟩
    | .infinity _ =>
      match x, x', vanishes, vanishes' with
      | .finite _ _ _ _, .finite _ _ _ _, vanishes, vanishes' =>
        exact .inl ((if_pos vanishes.2).trans (if_pos vanishes'.2).symm)
    | .nan _ =>
      match x, x', vanishes, vanishes' with
      | .finite _ _ _ _, .finite _ _ _ _, _, _ => exact .refl _
  · exact .inr ⟨vanishes_mul vanishes.1 yVanishes.1 (by rw [vanishes.2, Nat.zero_mul]),
      vanishes_mul vanishes'.1 yVanishes'.1 (by rw [vanishes'.2, Nat.zero_mul])⟩

/-- **Quotients respect it**, where the divisor does not vanish. -/
theorem div (first : Alike x x') (second : Alike y y') (number : y.isNaN = false)
    (nonzero : ¬ y.Vanishes) : Alike (x / y) (x' / y') := by
  obtain rfl := second.eq_of_not_vanishes nonzero
  rcases first with rfl | ⟨vanishes, vanishes'⟩
  · exact .refl _
  · exact .inr ⟨vanishes_div vanishes number nonzero, vanishes_div vanishes' number nonzero⟩

end Alike

/-! ## Opposites -/

/-- Two numbers are opposite: one is the other with the sign changed, but for the sign of
a zero. -/
structure Opposite (x y : Binary64) : Prop where
  /-- The first one is a number. -/
  number : x.isNaN = false
  /-- The second one is its opposite. -/
  alike : Alike y (-x)

theorem opposite_neg (number : x.isNaN = false) : Opposite x (-x) :=
  ⟨number, .refl _⟩

theorem opposite_zero : Opposite 0 0 :=
  ⟨isNaN_eq_false vanishes_zero.1, .inr ⟨vanishes_zero, vanishes_zero.neg⟩⟩

namespace Opposite

theorem number_right (opposite : Opposite x y) : y.isNaN = false := by
  rcases opposite.alike with rfl | ⟨vanishes, -⟩
  · rw [isNaN_neg, opposite.number]
  · exact isNaN_eq_false vanishes.1

theorem symm (opposite : Opposite x y) : Opposite y x where
  number := opposite.number_right
  alike := by
    have negated := opposite.alike.neg
    rw [neg_neg] at negated
    exact negated.symm

theorem congr (opposite : Opposite x y) (first : Alike x' x) (second : Alike y' y) :
    Opposite x' y' where
  number := by
    rcases first with rfl | ⟨vanishes, -⟩
    · exact opposite.number
    · exact isNaN_eq_false vanishes.1
  alike := (second.trans opposite.alike).trans first.neg.symm

theorem abs_eq (opposite : Opposite x y) : y.abs = x.abs := by
  rw [opposite.alike.abs_eq, abs_neg]

theorem isFinite_eq (opposite : Opposite x y) : y.isFinite = x.isFinite := by
  rw [opposite.alike.isFinite_eq, isFinite_neg]

theorem vanishes_iff (opposite : Opposite x y) : y.Vanishes ↔ x.Vanishes := by
  rw [Vanishes, Vanishes, opposite.isFinite_eq, ← magnitude_abs, opposite.abs_eq, magnitude_abs]

/-- A value vanishes where its opposite does. -/
theorem sameNumber_zero_eq (opposite : Opposite x y) : y.sameNumber 0 = x.sameNumber 0 := by
  rw [Bool.eq_iff_iff, sameNumber_zero_iff, sameNumber_zero_iff, opposite.vanishes_iff]

theorem eq_neg (opposite : Opposite x y) (nonzero : ¬ x.Vanishes) : y = -x :=
  opposite.alike.eq_of_not_vanishes fun vanishes => nonzero (opposite.vanishes_iff.mp vanishes)

theorem neg (opposite : Opposite x y) : Opposite (-x) (-y) :=
  ⟨(isNaN_neg x).trans opposite.number, opposite.alike.neg⟩

/-- **Sums of opposites are opposite.** -/
theorem add (first : Opposite x x') (second : Opposite y y') (finite : y.isFinite = true) :
    Opposite (x + y) (x' + y') where
  number := isNaN_add first.number finite
  alike := (first.alike.add second.alike).trans (neg_add_neg finite)

/-- **Products of opposites are alike.** -/
theorem mul (first : Opposite x x') (second : Opposite y y') : Alike (x' * y') (x * y) := by
  rw [← neg_mul_neg first.number second.number]
  exact first.alike.mul second.alike

/-- A positive factor in common makes no difference. -/
theorem ofNat_mul (opposite : Opposite x y) {factor : Nat} (positive : 0 < factor)
    (small : factor ≤ 2 ^ 53) : Opposite (OfNat.ofNat factor * x) (OfNat.ofNat factor * y) := by
  obtain ⟨finite, exact⟩ := toRat_ofNat factor small
  have nonzero : ¬ (OfNat.ofNat factor : Binary64).Vanishes := by
    rw [vanishes_iff_toRat finite, exact]
    exact Nat.cast_ne_zero.mpr positive.ne'
  refine ⟨isNaN_mul finite nonzero opposite.number, ?_⟩
  rw [← mul_neg finite nonzero opposite.number]
  exact (Alike.refl _).mul opposite.alike

/-- **Quotients of opposites are alike.** -/
theorem div (first : Opposite x x') (second : Opposite y y') (nonzero : ¬ y.Vanishes) :
    Alike (x' / y') (x / y) := by
  have nonzero' : ¬ y'.Vanishes := fun vanishes => nonzero (second.vanishes_iff.mp vanishes)
  rw [← neg_div_neg first.number second.number]
  exact first.alike.div second.alike second.number_right nonzero'

end Opposite

end Quadratics.Binary64
