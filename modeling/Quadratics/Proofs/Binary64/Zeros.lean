import Quadratics.Binary64.Arithmetic
import Quadratics.Proofs.Binary64.Rounding

/-!
# Zeros and signs

There are two zeros, and arithmetic may turn one into the other.  Apart from that
they are neutral: a zero added to any other value leaves it as it is, whatever the
value is (`add_of_vanishes`).  `Alike` says that two values differ at most in the
sign of a zero, and sums respect it (`Alike.add`).

No value is smaller than itself scaled down (`not_abs_lt_scaled`), so a value that
stands alone is never taken for noise.
-/

namespace Quadratics.Binary64

set_option autoImplicit false

variable {x y z : Binary64}

/-! ## Change of sign -/

@[simp]
theorem neg_neg (x : Binary64) : - -x = x := by
  show neg (neg x) = x
  cases x <;> simp only [neg, Bool.not_not]

@[simp]
theorem negative_neg (x : Binary64) : (-x).negative = !x.negative := by
  show (neg x).negative = _
  cases x <;> rfl

@[simp]
theorem isFinite_neg (x : Binary64) : (-x).isFinite = x.isFinite := by
  show (neg x).isFinite = _
  cases x <;> rfl

@[simp]
theorem isNaN_neg (x : Binary64) : (-x).isNaN = x.isNaN := by
  show (neg x).isNaN = _
  cases x <;> rfl

@[simp]
theorem magnitude_neg (x : Binary64) : (-x).magnitude = x.magnitude := by
  show (neg x).magnitude = _
  cases x <;> rfl

@[simp]
theorem units_neg (x : Binary64) : (-x).units = -x.units := by
  simp only [units, signed]
  rw [negative_neg, magnitude_neg]
  cases x.negative <;> simp

@[simp]
theorem abs_neg (x : Binary64) : (-x).abs = x.abs := by
  show (neg x).abs = _
  cases x <;> rfl

@[simp]
theorem magnitude_abs (x : Binary64) : x.abs.magnitude = x.magnitude := by
  cases x <;> rfl

@[simp]
theorem isFinite_abs (x : Binary64) : x.abs.isFinite = x.isFinite := by
  cases x <;> rfl

@[simp]
theorem isNaN_abs (x : Binary64) : x.abs.isNaN = x.isNaN := by
  cases x <;> rfl

@[simp]
theorem negative_abs (x : Binary64) : x.abs.negative = false := by
  cases x <;> rfl

@[simp]
theorem natAbs_units (x : Binary64) : x.units.natAbs = x.magnitude := by
  simp only [units, signed]
  split
  · rw [Int.natAbs_neg, Int.natAbs_natCast]
  · exact Int.natAbs_natCast _

/-- The sign of a number that is no zero is the sign of its units. -/
theorem negative_eq_of_units (nonzero : x.magnitude ≠ 0) : x.negative = decide (x.units < 0) := by
  unfold units signed
  cases x.negative
  · exact (decide_eq_false (by simp)).symm
  · refine (decide_eq_true ?_).symm
    rw [if_pos rfl]
    omega

/-! ## Zeros -/

/-- A value is one of the two zeros. -/
def Vanishes (x : Binary64) : Prop :=
  x.isFinite = true ∧ x.magnitude = 0

instance (x : Binary64) : Decidable x.Vanishes :=
  inferInstanceAs (Decidable (_ ∧ _))

theorem zero_eq : (0 : Binary64) = .finite false 0 0 (by decide) := by
  decide +kernel

@[simp]
theorem vanishes_zero : (0 : Binary64).Vanishes := by
  rw [zero_eq]
  exact ⟨rfl, rfl⟩

theorem Vanishes.neg (vanishes : x.Vanishes) : (-x).Vanishes :=
  ⟨(isFinite_neg x).trans vanishes.1, (magnitude_neg x).trans vanishes.2⟩

theorem vanishes_neg_iff : (-x).Vanishes ↔ x.Vanishes := by
  rw [Vanishes, Vanishes, isFinite_neg, magnitude_neg]

theorem Vanishes.units_eq (vanishes : x.Vanishes) : x.units = 0 := by
  rw [← Int.natAbs_eq_zero, natAbs_units, vanishes.2]

/-- A zero without its sign. -/
theorem Vanishes.abs_eq (vanishes : x.Vanishes) : x.abs = 0 := by
  refine eq_of_magnitude_eq ?_ vanishes_zero.1 ?_ ?_
  · rw [isFinite_abs, vanishes.1]
  · rw [negative_abs, zero_eq]
    rfl
  · rw [magnitude_abs, vanishes.2, vanishes_zero.2]

theorem rank?_of_isFinite (finite : x.isFinite = true) : x.rank? = some x.units := by
  match x, finite with
  | .finite _ _ _ _, _ => rfl

/-- Finite values are the same number when they count the same units. -/
theorem sameNumber_iff (xFinite : x.isFinite = true) (yFinite : y.isFinite = true) :
    x.sameNumber y = true ↔ x.units = y.units := by
  rw [sameNumber, compares, rank?_of_isFinite xFinite, rank?_of_isFinite yFinite]
  exact decide_eq_true_iff

theorem lt_iff (xFinite : x.isFinite = true) (yFinite : y.isFinite = true) :
    x < y ↔ x.units < y.units := by
  show compares _ x y = true ↔ _
  rw [compares, rank?_of_isFinite xFinite, rank?_of_isFinite yFinite]
  exact decide_eq_true_iff

theorem le_iff (xFinite : x.isFinite = true) (yFinite : y.isFinite = true) :
    x ≤ y ↔ x.units ≤ y.units := by
  show compares _ x y = true ↔ _
  rw [compares, rank?_of_isFinite xFinite, rank?_of_isFinite yFinite]
  exact decide_eq_true_iff

theorem units_abs (x : Binary64) : x.abs.units = x.magnitude := by
  rw [units, negative_abs, magnitude_abs]
  rfl

/-- The values that are the same number as zero are the two zeros. -/
theorem sameNumber_zero_iff : x.sameNumber 0 = true ↔ x.Vanishes := by
  match x with
  | .finite negative significand exponent canonical =>
    rw [sameNumber_iff rfl vanishes_zero.1, vanishes_zero.units_eq, ← Int.natAbs_eq_zero,
      natAbs_units]
    exact ⟨fun same => ⟨rfl, same⟩, And.right⟩
  | .infinity negative =>
    refine iff_of_false ?_ fun vanishes => Bool.false_ne_true vanishes.1
    cases negative <;> decide +kernel
  | .nan negative =>
    refine iff_of_false ?_ fun vanishes => Bool.false_ne_true vanishes.1
    rw [sameNumber, compares]
    exact Bool.false_ne_true

theorem sameNumber_zero_eq_false_iff : x.sameNumber 0 = false ↔ ¬ x.Vanishes := by
  rw [← sameNumber_zero_iff, Bool.not_eq_true]

/-! ## Places up to infinity -/

theorem units_le_magnitude (x : Binary64) : x.units ≤ x.magnitude := by
  simp only [units, signed]
  split <;> omega

/-- The place of an infinity is past that of every finite value. -/
theorem overflowCount_le_infiniteRank : overflowCount ≤ infiniteRank := by
  rw [infiniteRank, significandLimit_eq]
  exact overflowCount_le rfl

theorem le_infiniteRank {place : ℤ} (known : x.rank? = some place) : place ≤ infiniteRank := by
  match x with
  | .finite negative significand exponent canonical =>
    have finite : (finite negative significand exponent canonical).isFinite = true := rfl
    have below := (magnitude_lt_overflowCount finite).trans_le overflowCount_le_infiniteRank
    have units := units_le_magnitude (.finite negative significand exponent canonical)
    obtain rfl := Option.some.inj ((rank?_of_isFinite finite).symm.trans known)
    omega
  | .infinity negative =>
    obtain rfl := Option.some.inj known
    cases negative <;> simp [signed]

/-- **What is not finite is below nothing in magnitude.** -/
theorem not_abs_lt_of_not_finite (infinite : x.isFinite = false) (bound : Binary64) :
    ¬ x.abs < bound := by
  change ¬ compares _ x.abs bound = true
  match x, infinite with
  | .infinity negative, _ =>
    have top : (infinity negative).abs.rank? = some (infiniteRank : ℤ) := rfl
    rw [compares, top]
    cases known : bound.rank? with
    | none => exact Bool.false_ne_true
    | some place => simpa using le_infiniteRank known
  | .nan _, _ => exact Bool.false_ne_true

/-! ## Sums with a zero -/

theorem add_def (x y : Binary64) : x + y = add x y := rfl

theorem sub_def (x y : Binary64) : x - y = x + -y := rfl

theorem add_eq_addFinite (xFinite : x.isFinite = true) (yFinite : y.isFinite = true) :
    x + y = addFinite x y := by
  match x, y, xFinite, yFinite with
  | .finite _ _ _ _, .finite _ _ _ _, _, _ => rw [add_def, add]

theorem addFinite_comm (x y : Binary64) : addFinite x y = addFinite y x := by
  simp only [addFinite]
  rw [Int.add_comm, Bool.and_comm]

/-- Two values may be exchanged in a sum if one of them is finite. -/
theorem add_comm_of_isFinite (finite : x.isFinite = true) (y : Binary64) : x + y = y + x := by
  match x, y, finite with
  | .finite _ _ _ _, .finite _ _ _ _, _ =>
    rw [add_eq_addFinite rfl rfl, add_eq_addFinite rfl rfl, addFinite_comm]
  | .finite _ _ _ _, .infinity _, _ => rfl
  | .finite _ _ _ _, .nan _, _ => rfl

theorem addFinite_of_units_eq (finite : x.isFinite = true) (nonzero : x.magnitude ≠ 0)
    (units_eq : y.units + z.units = x.units) : addFinite y z = x := by
  have unitsNonzero : x.units ≠ 0 := by
    rwa [Ne, ← Int.natAbs_eq_zero, natAbs_units]
  simp only [addFinite]
  rw [units_eq, if_neg unitsNonzero, ← negative_eq_of_units nonzero, natAbs_units,
    ofQuotient_magnitude finite]

/-- **A zero added to anything else changes nothing.** -/
theorem add_of_vanishes (vanishes : z.Vanishes) (nonzero : ¬ x.Vanishes) : x + z = x := by
  match x, z, vanishes with
  | .finite _ _ _ _, .finite _ _ _ _, vanishes =>
    rw [add_eq_addFinite rfl vanishes.1]
    apply addFinite_of_units_eq rfl (fun zero => nonzero ⟨rfl, zero⟩)
    rw [vanishes.units_eq, Int.add_zero]
  | .infinity _, .finite _ _ _ _, _ => rfl
  | .nan _, .finite _ _ _ _, _ => rfl
  | _, .infinity _, vanishes => cases vanishes.1
  | _, .nan _, vanishes => cases vanishes.1

theorem add_of_vanishes_left (vanishes : z.Vanishes) (nonzero : ¬ x.Vanishes) : z + x = x := by
  rw [add_comm_of_isFinite vanishes.1, add_of_vanishes vanishes nonzero]

/-- The sum of two zeros is the negative one only if both are. -/
theorem add_zeros (xVanishes : x.Vanishes) (yVanishes : y.Vanishes) :
    (x + y).Vanishes ∧ (x + y).negative = (x.negative && y.negative) := by
  have exact := @ofQuotient_exact (x.negative && y.negative) 0 0 1 (by decide) Nat.one_pos
  rw [Nat.zero_shiftLeft, Nat.zero_mul] at exact
  rw [add_eq_addFinite xVanishes.1 yVanishes.1]
  simp only [addFinite]
  rw [xVanishes.units_eq, yVanishes.units_eq, Int.add_zero, if_pos rfl, Int.natAbs_zero, exact]
  exact ⟨⟨rfl, rfl⟩, rfl⟩

/-- Taking zero off leaves every value as it is. -/
theorem sub_zero (x : Binary64) : x - 0 = x := by
  show x + -0 = x
  by_cases vanishes : x.Vanishes
  · obtain ⟨sumVanishes, negative⟩ := add_zeros vanishes vanishes_zero.neg
    refine eq_of_magnitude_eq sumVanishes.1 vanishes.1 ?_ (sumVanishes.2.trans vanishes.2.symm)
    rw [negative, negative_neg, zero_eq]
    exact Bool.and_true _
  · exact add_of_vanishes vanishes_zero.neg vanishes

/-! ## Values that differ in the sign of a zero -/

/-- Two values are equal but for the sign of a zero. -/
def Alike (x y : Binary64) : Prop :=
  x = y ∨ x.Vanishes ∧ y.Vanishes

namespace Alike

theorem refl (x : Binary64) : Alike x x :=
  .inl rfl

theorem symm (alike : Alike x y) : Alike y x :=
  alike.imp Eq.symm And.symm

theorem trans (first : Alike x y) (second : Alike y z) : Alike x z := by
  rcases first with rfl | ⟨xVanishes, yVanishes⟩
  · exact second
  · rcases second with rfl | ⟨-, zVanishes⟩
    · exact .inr ⟨xVanishes, yVanishes⟩
    · exact .inr ⟨xVanishes, zVanishes⟩

theorem vanishes_iff (alike : Alike x y) : x.Vanishes ↔ y.Vanishes := by
  rcases alike with rfl | ⟨xVanishes, yVanishes⟩
  · exact Iff.rfl
  · exact iff_of_true xVanishes yVanishes

theorem eq_of_not_vanishes (alike : Alike x y) (nonzero : ¬ x.Vanishes) : x = y :=
  alike.resolve_right fun both => nonzero both.1

theorem neg (alike : Alike x y) : Alike (-x) (-y) :=
  alike.imp (congrArg _) fun both => ⟨both.1.neg, both.2.neg⟩

theorem abs_eq (alike : Alike x y) : x.abs = y.abs := by
  rcases alike with rfl | ⟨xVanishes, yVanishes⟩
  · rfl
  · rw [xVanishes.abs_eq, yVanishes.abs_eq]

theorem isFinite_eq (alike : Alike x y) : x.isFinite = y.isFinite := by
  rw [← isFinite_abs x, alike.abs_eq, isFinite_abs]

/-- **Sums respect it.** -/
theorem add {x' y' : Binary64} (first : Alike x x') (second : Alike y y') :
    Alike (x + y) (x' + y') := by
  by_cases xVanishes : x.Vanishes
  · have x'Vanishes := first.vanishes_iff.mp xVanishes
    by_cases yVanishes : y.Vanishes
    · have y'Vanishes := second.vanishes_iff.mp yVanishes
      exact .inr ⟨(add_zeros xVanishes yVanishes).1, (add_zeros x'Vanishes y'Vanishes).1⟩
    · obtain rfl := second.eq_of_not_vanishes yVanishes
      rw [add_of_vanishes_left xVanishes yVanishes, add_of_vanishes_left x'Vanishes yVanishes]
      exact .refl y
  · obtain rfl := first.eq_of_not_vanishes xVanishes
    by_cases yVanishes : y.Vanishes
    · have y'Vanishes := second.vanishes_iff.mp yVanishes
      rw [add_of_vanishes yVanishes xVanishes, add_of_vanishes y'Vanishes xVanishes]
      exact .refl x
    · obtain rfl := second.eq_of_not_vanishes yVanishes
      exact .refl _

/-- Where one of two values is finite, they are alike just when they are the same
number. -/
theorem iff_sameNumber (finite : x.isFinite = true) : Alike x y ↔ x.sameNumber y = true := by
  constructor
  · intro alike
    rw [sameNumber_iff finite (alike.isFinite_eq.symm.trans finite)]
    rcases alike with rfl | ⟨xVanishes, yVanishes⟩
    · rfl
    · rw [xVanishes.units_eq, yVanishes.units_eq]
  · intro same
    match y with
    | .finite negative significand exponent canonical =>
      have units := (sameNumber_iff finite rfl).mp same
      have magnitudes := congrArg Int.natAbs units
      rw [natAbs_units, natAbs_units] at magnitudes
      by_cases zero : x.magnitude = 0
      · exact .inr ⟨⟨finite, zero⟩, rfl, magnitudes ▸ zero⟩
      · refine .inl (eq_of_magnitude_eq finite rfl ?_ magnitudes)
        rw [negative_eq_of_units zero, negative_eq_of_units (magnitudes ▸ zero), units]
    | .infinity negative =>
      -- The place of an infinity is past that of every finite value.
      rw [sameNumber, compares, rank?_of_isFinite finite] at same
      have place := congrArg Int.natAbs (of_decide_eq_true same)
      have below := magnitude_lt_overflowCount finite
      have top := overflowCount_le_infiniteRank
      cases negative <;> simp only [signed, natAbs_units, Int.natAbs_neg, Int.natAbs_natCast,
        if_true, Bool.false_eq_true, if_false] at place <;> omega
    | .nan negative =>
      rw [sameNumber, compares, rank?_of_isFinite finite] at same
      cases same

end Alike

/-- A zero added to a value leaves it as it is, but for the sign of a zero. -/
theorem alike_add_of_vanishes (vanishes : z.Vanishes) (x : Binary64) : Alike (x + z) x := by
  by_cases xVanishes : x.Vanishes
  · exact .inr ⟨(add_zeros xVanishes vanishes).1, xVanishes⟩
  · exact .inl (add_of_vanishes vanishes xVanishes)

theorem alike_add_of_vanishes_left (vanishes : z.Vanishes) (x : Binary64) : Alike (z + x) x := by
  by_cases xVanishes : x.Vanishes
  · exact .inr ⟨(add_zeros vanishes xVanishes).1, xVanishes⟩
  · exact .inl (add_of_vanishes_left vanishes xVanishes)

theorem alike_add_zero (x : Binary64) : Alike (x + 0) x :=
  alike_add_of_vanishes vanishes_zero x

@[simp]
theorem isFinite_add_zero (x : Binary64) : (x + 0).isFinite = x.isFinite :=
  (alike_add_zero x).isFinite_eq

/-- Adding zero leaves no negative zero. -/
theorem add_zero_ne_neg_zero (x : Binary64) : x + 0 ≠ -0 := by
  by_cases vanishes : x.Vanishes
  · intro same
    have sign := (add_zeros vanishes vanishes_zero).2
    rw [same, negative_neg, zero_eq] at sign
    exact absurd sign.symm (by simp [negative])
  · rw [add_of_vanishes vanishes_zero vanishes]
    rintro rfl
    exact vanishes vanishes_zero.neg

/-- **Adding zero removes the only difference between alike values.** -/
theorem Alike.add_zero_eq (alike : Alike x y) : x + 0 = y + 0 := by
  rcases alike with rfl | ⟨xVanishes, yVanishes⟩
  · rfl
  · obtain ⟨xSum, xSign⟩ := add_zeros xVanishes vanishes_zero
    obtain ⟨ySum, ySign⟩ := add_zeros yVanishes vanishes_zero
    refine eq_of_magnitude_eq xSum.1 ySum.1 ?_ (xSum.2.trans ySum.2.symm)
    rw [xSign, ySign, zero_eq]
    exact (Bool.and_false _).trans (Bool.and_false _).symm

/-! ## Scaling down -/

theorem mul_eq_ofQuotient (xFinite : x.isFinite = true) (yFinite : y.isFinite = true) :
    x * y = ofQuotient (x.negative != y.negative) (x.magnitude * y.magnitude) unitsPerOne := by
  change mul x y = _
  match x, y, xFinite, yFinite with
  | .finite _ _ _ _, .finite _ _ _ _, _, _ => rw [mul]

theorem not_scaled_lt {factor : Binary64} (xFinite : x.isFinite = true)
    (finite : factor.isFinite = true) (small : factor.magnitude ≤ unitsPerOne) :
    ¬ x.abs < x.abs * factor := by
  have absFinite : x.abs.isFinite = true := (isFinite_abs x).trans xFinite
  obtain ⟨scaledFinite, smaller⟩ := @ofQuotient_le (x.abs.negative != factor.negative) _ _ x.abs
    unitsPerOne_pos absFinite (Nat.mul_le_mul_left _ small)
  rw [mul_eq_ofQuotient absFinite finite, lt_iff absFinite scaledFinite, units_abs, Int.not_lt]
  rw [magnitude_abs] at smaller scaledFinite ⊢
  exact (units_le_magnitude _).trans (Int.ofNat_le.mpr smaller)

/-- **No value is smaller than itself scaled down.** -/
theorem not_abs_lt_scaled {factor : Binary64} (finite : factor.isFinite = true)
    (small : factor.magnitude ≤ unitsPerOne) : ¬ x.abs < x.abs * factor := by
  match x, factor, finite with
  | .finite _ _ _ _, factor, finite => exact not_scaled_lt rfl finite small
  | .infinity _, .finite factorNegative _ _ _, _ =>
    have nowhere : ∀ sign, ¬ (infinity false : Binary64) < .infinity sign := by decide +kernel
    show ¬ infinity false < (if _ then undefined else .infinity (false != factorNegative))
    split
    · exact Bool.false_ne_true
    · exact nowhere _
  | .nan _, .finite _ _ _ _, _ => exact Bool.false_ne_true

end Quadratics.Binary64
