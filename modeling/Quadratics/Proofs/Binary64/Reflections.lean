import Quadratics.Binary64.Places
import Quadratics.Proofs.Binary64.Opposites

/-!
# Values reflected at zero

A value is reflected when it changes its sign.  Operations by a common factor or divisor
keep reflections, whatever that factor is, if it is left open what becomes of the sign of
a zero and of a value that is no number (`Reflects`).  A scale for rounding to places may
be zero or infinite, and then there is no number to show, but there is none for the
reflected value either.

Rounding goes away from zero at a half, so it favours no sign, and rounding to places keeps
reflections (`Reflects.roundTo`).  So a value looks whole just where the reflected one does
(`Reflects.looksWhole_eq`).
-/

namespace Quadratics.Binary64

set_option autoImplicit false

variable {x y x' y' : Binary64}

/-! ## Alike values once more -/

theorem Alike.isNaN_eq (alike : Alike x y) : x.isNaN = y.isNaN := by
  rw [← isNaN_abs x, alike.abs_eq, isNaN_abs]

theorem isWhole_abs (x : Binary64) : x.abs.isWhole = x.isWhole := by
  rw [isWhole, isWhole, isFinite_abs, magnitude_abs]

theorem round_neg (x : Binary64) : (-x).round = -x.round := by
  match x with
  | .finite _ _ _ _ => exact (neg_ofQuotient _ _ _).symm
  | .infinity _ => rfl
  | .nan _ => rfl

theorem isFinite_of_round (finite : x.round.isFinite = true) : x.isFinite = true := by
  match x, finite with
  | .finite _ _ _ _, _ => rfl

theorem vanishes_round (vanishes : x.Vanishes) : x.round.Vanishes := by
  match x, vanishes with
  | .finite negative significand exponent canonical, vanishes =>
    have none : (2 * 0 + unitsPerOne) / (2 * unitsPerOne) = 0 :=
      Nat.div_eq_of_lt (by have := unitsPerOne_pos; omega)
    have rounded : round (.finite negative significand exponent canonical) =
        ofQuotient negative 0 1 := by
      simp only [round]
      rw [vanishes.2, none, Nat.zero_mul]
    rw [rounded]
    exact vanishes_ofQuotient_zero _ Nat.one_pos

theorem Alike.round (alike : Alike x y) : Alike x.round y.round := by
  rcases alike with rfl | ⟨xVanishes, yVanishes⟩
  · exact .refl _
  · exact .inr ⟨vanishes_round xVanishes, vanishes_round yVanishes⟩

/-- Quotients respect it whatever the divisor is: a zero divided by a zero has no result. -/
theorem Alike.div_right (alike : Alike x y) (divisor : Binary64) :
    Alike (x / divisor) (y / divisor) := by
  rcases alike with rfl | ⟨xVanishes, yVanishes⟩
  · exact .refl _
  · match divisor with
    | .nan _ =>
      match x, y, xVanishes, yVanishes with
      | .finite _ _ _ _, .finite _ _ _ _, _, _ => exact .refl _
    | .infinity _ =>
      exact .inr ⟨vanishes_div xVanishes rfl fun zero => Bool.false_ne_true zero.1,
        vanishes_div yVanishes rfl fun zero => Bool.false_ne_true zero.1⟩
    | .finite negative significand exponent canonical =>
      by_cases zero : (finite negative significand exponent canonical).Vanishes
      · match x, y, xVanishes, yVanishes with
        | .finite _ _ _ _, .finite _ _ _ _, xVanishes, yVanishes =>
          change Alike (Binary64.div _ _) (Binary64.div _ _)
          rw [Binary64.div, if_pos zero.2, if_pos xVanishes.2, Binary64.div, if_pos zero.2,
            if_pos yVanishes.2]
          exact .refl _
      · exact .inr ⟨vanishes_div xVanishes rfl zero, vanishes_div yVanishes rfl zero⟩

theorem rank?_of_isNaN (none : x.isNaN = true) : x.rank? = Option.none := by
  match x, none with
  | .nan _, _ => rfl

theorem signed_not (negative : Bool) (magnitude : Nat) :
    signed (!negative) magnitude = -signed negative magnitude := by
  cases negative <;> simp [signed]

theorem rank?_neg (x : Binary64) : (-x).rank? = x.rank?.map fun place => -place := by
  match x with
  | .finite _ _ _ _ => exact congrArg some (signed_not _ _)
  | .infinity _ => exact congrArg some (signed_not _ _)
  | .nan _ => rfl

theorem Alike.rank?_eq (alike : Alike x y) : x.rank? = y.rank? := by
  rcases alike with rfl | ⟨xVanishes, yVanishes⟩
  · rfl
  · rw [rank?_of_isFinite xVanishes.1, rank?_of_isFinite yVanishes.1, xVanishes.units_eq,
      yVanishes.units_eq]

theorem truncate_neg (x : Binary64) : (-x).truncate = -x.truncate := by
  rw [truncate, negative_neg, magnitude_neg, signed_not]
  rfl

theorem Vanishes.truncate_eq (vanishes : x.Vanishes) : x.truncate = 0 := by
  rw [truncate, vanishes.2, Nat.zero_div, signed, Int.natCast_zero, Int.neg_zero, ite_self]

theorem Alike.truncate_eq (alike : Alike x y) : x.truncate = y.truncate := by
  rcases alike with rfl | ⟨xVanishes, yVanishes⟩
  · rfl
  · rw [xVanishes.truncate_eq, yVanishes.truncate_eq]

theorem Opposite.truncate_eq (opposite : Opposite x y) : y.truncate = -x.truncate := by
  rw [opposite.alike.truncate_eq, truncate_neg]

/-! ## Reflections -/

/-- One value is the other with the sign changed, but for the sign of a zero, or neither
is a number. -/
inductive Reflects (x y : Binary64) : Prop where
  | noNumber (left : x.isNaN = true) (right : y.isNaN = true)
  | opposite (opposite : Opposite x y)

theorem reflects_of_alike (alike : Alike y (-x)) : Reflects x y := by
  cases number : x.isNaN
  · exact .opposite ⟨number, alike⟩
  · exact .noNumber number (by rw [alike.isNaN_eq, isNaN_neg, number])

theorem reflects_neg (x : Binary64) : Reflects x (-x) :=
  reflects_of_alike (.refl _)

theorem isNaN_mul_left (none : x.isNaN = true) (y : Binary64) : (x * y).isNaN = true := by
  match x, y, none with
  | .nan _, .finite _ _ _ _, _ => rfl
  | .nan _, .infinity _, _ => rfl
  | .nan _, .nan _, _ => rfl

theorem isNaN_div_left (none : x.isNaN = true) (y : Binary64) : (x / y).isNaN = true := by
  match x, y, none with
  | .nan _, .finite _ _ _ _, _ => rfl
  | .nan _, .infinity _, _ => rfl
  | .nan _, .nan _, _ => rfl

theorem isNaN_div_right (x : Binary64) (none : y.isNaN = true) : (x / y).isNaN = true := by
  match x, y, none with
  | .finite _ _ _ _, .nan _, _ => rfl
  | .infinity _, .nan _, _ => rfl
  | .nan _, .nan _, _ => rfl

theorem Reflects.ite {condition : Prop} [Decidable condition] (first : Reflects x x')
    (second : Reflects y y') :
    Reflects (if condition then x else y) (if condition then x' else y') := by
  split
  · exact first
  · exact second

theorem reflects_undefined : Reflects undefined undefined :=
  .noNumber rfl rfl

/-- The sign of a factor is the sign of the product. -/
theorem reflects_neg_mul (x y : Binary64) : Reflects (x * y) (-x * y) := by
  have signs : ∀ left right : Bool, ((!left) != right) = !(left != right) := by decide
  change Reflects (mul x y) (mul (neg x) y)
  match x, y with
  | .nan _, y => exact .noNumber (isNaN_mul_left rfl y) (isNaN_mul_left rfl y)
  | .finite _ _ _ _, .nan _ => exact .noNumber rfl rfl
  | .infinity _, .nan _ => exact .noNumber rfl rfl
  | .finite left _ _ _, .finite right _ _ _ =>
    simp only [mul, neg, negative, magnitude, signs, ← neg_ofQuotient]
    exact reflects_neg _
  | .infinity left, .infinity right =>
    simp only [mul, neg, negative, signs]
    exact reflects_neg (infinity (left != right))
  | .infinity _, .finite _ _ _ _ =>
    simp only [mul, neg, negative, signs]
    exact .ite reflects_undefined (reflects_neg (infinity _))
  | .finite _ _ _ _, .infinity _ =>
    simp only [mul, neg, negative, magnitude, signs]
    exact .ite reflects_undefined (reflects_neg (infinity _))

/-- The sign of a dividend is the sign of the quotient. -/
theorem reflects_neg_div (x y : Binary64) : Reflects (x / y) (-x / y) := by
  have signs : ∀ left right : Bool, ((!left) != right) = !(left != right) := by decide
  change Reflects (div x y) (div (neg x) y)
  match x, y with
  | .nan _, y => exact .noNumber (isNaN_div_left rfl y) (isNaN_div_left rfl y)
  | .finite _ _ _ _, .nan _ => exact .noNumber rfl rfl
  | .infinity _, .nan _ => exact .noNumber rfl rfl
  | .infinity _, .infinity _ => exact reflects_undefined
  | .infinity left, .finite right _ _ _ =>
    simp only [div, neg, negative, signs]
    exact reflects_neg (infinity (left != right))
  | .finite left _ _ _, .infinity right =>
    simp only [div, neg, negative, signs, ← neg_ofQuotient]
    exact reflects_neg _
  | .finite _ _ _ _, .finite _ _ _ _ =>
    simp only [div, neg, negative, magnitude, signs, ← neg_ofQuotient]
    exact .ite (.ite reflects_undefined (reflects_neg (infinity _))) (reflects_neg _)

/-- The sign of a divisor is the sign of the quotient. -/
theorem reflects_div_neg (x y : Binary64) : Reflects (x / y) (x / -y) := by
  cases xNumber : x.isNaN with
  | true => exact .noNumber (isNaN_div_left xNumber y) (isNaN_div_left xNumber (-y))
  | false =>
    cases yNumber : y.isNaN with
    | true =>
      exact .noNumber (isNaN_div_right x yNumber) (isNaN_div_right x ((isNaN_neg y).trans yNumber))
    | false =>
      have moved := @neg_div_neg (-x) y ((isNaN_neg x).trans xNumber) yNumber
      rw [neg_neg] at moved
      rw [moved]
      exact reflects_neg_div x y

namespace Reflects

theorem congr (reflects : Reflects x y) (first : Alike x' x) (second : Alike y' y) :
    Reflects x' y' := by
  rcases reflects with ⟨left, right⟩ | opposite
  · exact .noNumber (first.isNaN_eq.trans left) (second.isNaN_eq.trans right)
  · exact .opposite (opposite.congr first second)

/-! ## Operations -/

theorem mul_right (reflects : Reflects x y) (factor : Binary64) :
    Reflects (x * factor) (y * factor) := by
  rcases reflects with ⟨left, right⟩ | opposite
  · exact .noNumber (isNaN_mul_left left factor) (isNaN_mul_left right factor)
  · exact (reflects_neg_mul x factor).congr (.refl _) (opposite.alike.mul (.refl factor))

theorem div_right (reflects : Reflects x y) (divisor : Binary64) :
    Reflects (x / divisor) (y / divisor) := by
  rcases reflects with ⟨left, right⟩ | opposite
  · exact .noNumber (isNaN_div_left left divisor) (isNaN_div_left right divisor)
  · exact (reflects_neg_div x divisor).congr (.refl _) (opposite.alike.div_right divisor)

theorem round (reflects : Reflects x y) : Reflects x.round y.round := by
  rcases reflects with ⟨left, right⟩ | opposite
  · match x, y, left, right with
    | .nan _, .nan _, _, _ => exact .noNumber rfl rfl
  · refine reflects_of_alike ?_
    rw [← round_neg]
    exact opposite.alike.round

theorem add_zero (reflects : Reflects x y) : Reflects (x + 0) (y + 0) :=
  reflects.congr (alike_add_zero x) (alike_add_zero y)

/-- **Rounding to places keeps reflections.** -/
theorem roundTo (reflects : Reflects x y) (places : Nat) :
    Reflects (x.roundTo places) (y.roundTo places) :=
  ((reflects.mul_right _).round.div_right _).add_zero

/-! ## Observations -/

theorem isFinite_eq (reflects : Reflects x y) : y.isFinite = x.isFinite := by
  rcases reflects with ⟨left, right⟩ | opposite
  · match x, y, left, right with
    | .nan _, .nan _, _, _ => rfl
  · exact opposite.isFinite_eq

/-- A value whose reflection is finite is a number. -/
theorem opposite_of_isFinite (reflects : Reflects x y) (finite : x.isFinite = true) :
    Opposite x y := by
  rcases reflects with ⟨left, -⟩ | opposite
  · rw [isNaN_eq_false finite] at left
    cases left
  · exact opposite

theorem isWhole_eq (reflects : Reflects x y) : y.isWhole = x.isWhole := by
  rcases reflects with ⟨left, right⟩ | opposite
  · match x, y, left, right with
    | .nan _, .nan _, _, _ => rfl
  · rw [← isWhole_abs, opposite.abs_eq, isWhole_abs]

/-- **A value looks whole just where the reflected one does.** -/
theorem looksWhole_eq (reflects : Reflects x y) : y.looksWhole = x.looksWhole :=
  (reflects.roundTo noisePlaces).isWhole_eq

theorem rank?_eq (reflects : Reflects x y) : y.rank? = x.rank?.map fun place => -place := by
  rcases reflects with ⟨left, right⟩ | opposite
  · rw [rank?_of_isNaN left, rank?_of_isNaN right]
    rfl
  · rw [opposite.alike.rank?_eq, rank?_neg]

/-- A value is negative where the reflected one is positive. -/
theorem neg_of_pos (reflects : Reflects x y) (positive : 0 < y) : x < 0 := by
  change compares (fun i j => decide (i < j)) 0 y = true at positive
  change compares (fun i j => decide (i < j)) x 0 = true
  have zero : (0 : Binary64).rank? = some 0 := by
    rw [rank?_of_isFinite vanishes_zero.1, vanishes_zero.units_eq]
  rw [compares, zero, reflects.rank?_eq] at positive
  rw [compares, zero]
  cases known : x.rank? with
  | none =>
    rw [known] at positive
    cases positive
  | some place =>
    rw [known] at positive
    have above : 0 < -place := of_decide_eq_true positive
    exact decide_eq_true (by omega)

/-- Reflected values are the same number just where the values are. -/
theorem sameNumber_eq (first : Reflects x x') (second : Reflects y y') :
    x'.sameNumber y' = x.sameNumber y := by
  simp only [sameNumber, compares, first.rank?_eq, second.rank?_eq]
  cases x.rank? <;> cases y.rank? <;> simp

end Reflects

/-- The quotients by opposite divisors are reflections. -/
theorem Opposite.reflects_div (opposite : Opposite y y') (nonzero : ¬ y.Vanishes) (x : Binary64) :
    Reflects (x / y) (x / y') := by
  rw [opposite.eq_neg nonzero]
  exact reflects_div_neg x y

end Quadratics.Binary64
