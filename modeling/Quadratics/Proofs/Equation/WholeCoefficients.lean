import Mathlib.Algebra.Polynomial.Degree.Support
import Quadratics.Proofs.Binary64.Precision
import Quadratics.Proofs.Equation.Polynomial

/-!
# Whole coefficients are collected exactly

An equation whose coefficients are whole numbers keeps its meaning when it is reduced,
as long as they are small: none larger than `10 ^ 12`, and those of one power together
no larger than `2 ^ 53`.  Then every partial sum is a whole number that a significand
can hold, so that the total is exact (`total_whole`).  The tolerance for noise is at
most one, and nothing but zero among the whole numbers is smaller than that
(`exactSum_eq_zero_of_cancels`); the bound `10 ^ 12` is where the tolerance becomes
one.

The main statement is `reduce_whole`: the polynomial of the reduced form is the
polynomial of the left side less that of the right side.
-/

namespace Quadratics.Equation

set_option autoImplicit false

open Binary64 (larger isWhole_iff)

/-! ## Totals -/

/-- The sum of the magnitudes of some values. -/
def totalMagnitude (values : List Binary64) : ℚ :=
  (values.map fun value => |value.toRat|).sum

theorem totalMagnitude_cons (value : Binary64) (values : List Binary64) :
    totalMagnitude (value :: values) = |value.toRat| + totalMagnitude values := by
  rw [totalMagnitude, List.map_cons, List.sum_cons, totalMagnitude]

theorem totalMagnitude_append (front back : List Binary64) :
    totalMagnitude (front ++ back) = totalMagnitude front + totalMagnitude back := by
  rw [totalMagnitude, List.map_append, List.sum_append, totalMagnitude, totalMagnitude]

theorem totalMagnitude_neg (values : List Binary64) :
    totalMagnitude (values.map fun value => -value) = totalMagnitude values := by
  induction values with
  | nil => rfl
  | cons value values ih =>
    rw [List.map_cons, totalMagnitude_cons, ih, totalMagnitude_cons, Binary64.toRat_neg, abs_neg]

theorem totalMagnitude_nonneg (values : List Binary64) : 0 ≤ totalMagnitude values :=
  List.sum_nonneg (by simp only [List.mem_map]; rintro _ ⟨value, -, rfl⟩; exact abs_nonneg _)

/-- Each partial sum of whole numbers is exact, as long as it stays small.  The
induction carries the magnitudes that are still to come. -/
theorem foldl_add_whole {first : Binary64} {values : List Binary64}
    (firstWhole : first.isWhole = true) (whole : ∀ value ∈ values, value.isWhole = true)
    (light : |first.toRat| + totalMagnitude values ≤ 2 ^ 53) :
    (values.foldl Binary64.add first).isWhole = true ∧
      (values.foldl Binary64.add first).toRat = first.toRat + exactSum values := by
  induction values generalizing first with
  | nil => exact ⟨firstWhole, (add_zero _).symm⟩
  | cons value values ih =>
    obtain ⟨valueWhole, restWhole⟩ := List.forall_mem_cons.mp whole
    rw [totalMagnitude_cons] at light
    have triangle := abs_add_le first.toRat value.toRat
    have rest := totalMagnitude_nonneg values
    obtain ⟨sumWhole, sum⟩ := Binary64.add_whole firstWhole valueWhole (by linarith)
    obtain ⟨totalWhole, total⟩ := @ih (first + value) sumWhole restWhole (by rw [sum]; linarith)
    refine ⟨totalWhole, ?_⟩
    rw [List.foldl_cons, exactSum_cons, ← add_assoc, ← sum]
    exact total

/-- **The total of small whole numbers is their exact sum.** -/
theorem total_whole {values : List Binary64} (whole : ∀ value ∈ values, value.isWhole = true)
    (light : totalMagnitude values ≤ 2 ^ 53) :
    (total values).isWhole = true ∧ (total values).toRat = exactSum values := by
  match values with
  | [] =>
    have whole : (0 : Binary64).toRat = (0 : ℤ) := Binary64.toRat_zero.trans Int.cast_zero.symm
    exact ⟨isWhole_iff.mpr ⟨Binary64.vanishes_zero.1, 0, whole⟩, Binary64.toRat_zero⟩
  | first :: rest =>
    obtain ⟨firstWhole, restWhole⟩ := List.forall_mem_cons.mp whole
    rw [totalMagnitude_cons] at light
    rw [exactSum_cons]
    exact foldl_add_whole firstWhole restWhole light

/-! ## Noise -/

theorem foldl_larger_le {bound : ℚ} {start : Binary64} (startFinite : start.isFinite = true)
    (startLe : start.toRat ≤ bound) {values : List Binary64}
    (finite : ∀ value ∈ values, value.isFinite = true ∧ |value.toRat| ≤ bound) :
    (values.foldl (fun largest value => larger largest value.abs) start).isFinite = true ∧
      (values.foldl (fun largest value => larger largest value.abs) start).toRat ≤ bound := by
  induction values generalizing start with
  | nil => exact ⟨startFinite, startLe⟩
  | cons value values ih =>
    obtain ⟨⟨valueFinite, valueLe⟩, restFinite⟩ := List.forall_mem_cons.mp finite
    rw [← Binary64.isFinite_abs] at valueFinite
    rw [← Binary64.toRat_abs] at valueLe
    obtain ⟨isFinite, same⟩ := Binary64.toRat_larger startFinite valueFinite
    exact ih isFinite (same.trans_le (max_le startLe valueLe)) restFinite

/-- The largest magnitude among some values is within a bound for all of them. -/
theorem largest_le {bound : ℚ} (nonneg : 0 ≤ bound) {values : List Binary64}
    (finite : ∀ value ∈ values, value.isFinite = true ∧ |value.toRat| ≤ bound) :
    (largest values).isFinite = true ∧ (largest values).toRat ≤ bound :=
  foldl_larger_le Binary64.vanishes_zero.1 (Binary64.toRat_zero.trans_le nonneg) finite

/-- **The tolerance for noise does not reach one**, if no value is above `10 ^ 12`. -/
theorem tolerance_le_one {values : List Binary64}
    (small : ∀ value ∈ values, value.isFinite = true ∧ |value.toRat| ≤ 10 ^ 12) :
    (largest values * cancellationThreshold).isFinite = true ∧
      (largest values * cancellationThreshold).toRat ≤ 1 := by
  obtain ⟨finite, bounded⟩ := largest_le (by positivity) small
  obtain ⟨thresholdFinite, positive, threshold⟩ :
      cancellationThreshold.isFinite = true ∧ 0 < cancellationThreshold.toRat ∧
        cancellationThreshold.toRat ≤ 1 / 10 ^ 12 := Decimal.toRat_nearest_trillionth
  have productFinite : (largest values * cancellationThreshold).isFinite = true := by
    refine Binary64.isFinite_mul_of_le_one finite thresholdFinite ?_
    rw [abs_of_pos positive]
    exact threshold.trans (by norm_num)
  refine ⟨productFinite, ?_⟩
  have product := Binary64.mul_alike finite thresholdFinite
  rw [product.isFinite_eq] at productFinite
  obtain ⟨oneFinite, one⟩ := Binary64.toRat_ofNat 1 (by decide)
  have within : (largest values).toRat * cancellationThreshold.toRat ≤ 1 := by
    calc (largest values).toRat * cancellationThreshold.toRat
        ≤ 10 ^ 12 * cancellationThreshold.toRat :=
          mul_le_mul_of_nonneg_right bounded positive.le
      _ ≤ 10 ^ 12 * (1 / 10 ^ 12) := mul_le_mul_of_nonneg_left threshold (by positivity)
      _ = 1 := by norm_num
  rw [Nat.cast_one] at one
  rw [product.toRat_eq, ← one]
  exact Binary64.toRat_rounded_le productFinite oneFinite (within.trans_eq one.symm)

/-- **Whole numbers that are taken for noise add up to zero.** -/
theorem exactSum_eq_zero_of_cancels {values : List Binary64}
    (whole : ∀ value ∈ values, value.isWhole = true)
    (small : ∀ value ∈ values, |value.toRat| ≤ 10 ^ 12) (light : totalMagnitude values ≤ 2 ^ 53)
    (noise : cancels (total values) values = true) : exactSum values = 0 := by
  obtain ⟨totalWhole, sum⟩ := total_whole whole light
  obtain ⟨totalFinite, number, same⟩ := isWhole_iff.mp totalWhole
  obtain ⟨toleranceFinite, tolerance⟩ := @tolerance_le_one values fun value member =>
    ⟨(isWhole_iff.mp (whole value member)).1, small value member⟩
  have below := of_decide_eq_true noise
  rw [Binary64.lt_iff_toRat ((Binary64.isFinite_abs _).trans totalFinite) toleranceFinite,
    Binary64.toRat_abs, same] at below
  have zero : |number| < 1 := by exact_mod_cast below.trans_le tolerance
  rw [← sum, same, Int.abs_lt_one_iff.mp zero, Int.cast_zero]

/-- **What small whole numbers amount to is their exact sum.** -/
theorem collect_whole {values : List Binary64} (whole : ∀ value ∈ values, value.isWhole = true)
    (small : ∀ value ∈ values, |value.toRat| ≤ 10 ^ 12) (light : totalMagnitude values ≤ 2 ^ 53) :
    (collect values).isFinite = true ∧ (collect values).toRat = exactSum values := by
  unfold collect
  split
  · rename_i noise
    rw [exactSum_eq_zero_of_cancels whole small light noise.2]
    exact ⟨Binary64.vanishes_zero.1, Binary64.toRat_zero⟩
  · obtain ⟨totalWhole, sum⟩ := total_whole whole light
    exact ⟨(isWhole_iff.mp totalWhole).1, sum⟩

/-! ## Equations -/

section Sides

variable {left right : List Term}
  (whole : ∀ term ∈ left ++ right, term.value.isWhole = true ∧ |term.value.toRat| ≤ 10 ^ 12)
  (light : ∀ power, totalMagnitude (likeValues (left ++ right) power) ≤ 2 ^ 53)
include whole light

/-- A balance of whole numbers amounts to its exact sum. -/
theorem collect_balance (power : UInt32) :
    (collect (balance left right power)).isFinite = true ∧
      (collect (balance left right power)).toRat =
        exactSum (likeValues left power) - exactSum (likeValues right power) := by
  have weight : totalMagnitude (balance left right power) =
      totalMagnitude (likeValues (left ++ right) power) := by
    rw [balance, totalMagnitude_append, totalMagnitude_neg, ← totalMagnitude_append,
      likeValues_append]
  have eachValue : ∀ value ∈ balance left right power,
      value.isWhole = true ∧ |value.toRat| ≤ 10 ^ 12 := by
    intro value member
    rcases List.mem_append.mp member with onLeft | onRight
    · obtain ⟨term, isTerm, rfl⟩ := List.mem_map.mp onLeft
      exact whole term (List.mem_append_left _ (List.mem_filter.mp isTerm).1)
    · obtain ⟨_, isValue, rfl⟩ := List.mem_map.mp onRight
      obtain ⟨term, isTerm, rfl⟩ := List.mem_map.mp isValue
      obtain ⟨termWhole, termSmall⟩ :=
        whole term (List.mem_append_right _ (List.mem_filter.mp isTerm).1)
      obtain ⟨finite, number, same⟩ := isWhole_iff.mp termWhole
      rw [isWhole_iff, Binary64.isFinite_neg, Binary64.toRat_neg, abs_neg, same]
      exact ⟨⟨finite, -number, (Int.cast_neg number).symm⟩, same ▸ termSmall⟩
  rw [← exactSum_balance]
  exact collect_whole (fun value member => (eachValue value member).1)
    (fun value member => (eachValue value member).2) (weight.trans_le (light power))

/-- The reduced form has finite coefficients. -/
theorem finite_reduce_whole :
    ∀ term ∈ (ofSides left right).reduce.left, term.value.isFinite = true := by
  intro term member
  have amount := (mem_collectTerms.mp member).2
  rw [amount, likeValues_moved]
  exact (collect_balance whole light term.power).1

/-- The values of a power in the reduced form add up to the left side less the right
side. -/
theorem exactSum_reduce_whole (power : UInt32) :
    exactSum (likeValues (ofSides left right).reduce.left power) =
      exactSum (likeValues left power) - exactSum (likeValues right power) := by
  obtain ⟨finite, same⟩ := collect_balance whole light power
  rw [← same, ← likeValues_moved]
  rw [← likeValues_moved] at finite
  have canonical : Canonical (ofSides left right).reduce.left := canonical_collectTerms _
  by_cases vanishes : (collect (likeValues (ofSides left right).moved power)).Vanishes
  · -- A power that amounts to zero has no term.
    rw [(Binary64.vanishes_iff_toRat finite).mp vanishes]
    refine congrArg exactSum (likeValues_eq_nil ?_)
    rintro term member rfl
    obtain ⟨nonzero, amount⟩ := mem_collectTerms.mp member
    rw [← amount] at vanishes
    exact Binary64.sameNumber_zero_eq_false_iff.mp nonzero vanishes
  · have member : ⟨collect (likeValues (ofSides left right).moved power), power⟩ ∈
        (ofSides left right).reduce.left :=
      mem_collectTerms.mpr ⟨Binary64.sameNumber_zero_eq_false_iff.mpr vanishes, rfl⟩
    have single : likeValues (ofSides left right).reduce.left power = [_] :=
      canonical.likeValues_eq member
    rw [single, exactSum_cons]
    exact add_zero _

/-- **The reduced form writes the left side less the right side.** -/
theorem polynomial_reduce :
    polynomial (ofSides left right).reduce.left = polynomial left - polynomial right := by
  ext exponent
  rw [Polynomial.coeff_sub]
  rcases exists_power_or_large exponent with ⟨power, rfl⟩ | large
  · rw [coeff_polynomial, coeff_polynomial, coeff_polynomial]
    exact exactSum_reduce_whole whole light power
  · rw [coeff_polynomial_of_large _ large, coeff_polynomial_of_large _ large,
      coeff_polynomial_of_large _ large, sub_zero]

end Sides

/-- **Reduction keeps the meaning of equations with whole coefficients.**  Where these
are no larger than `10 ^ 12`, and those of one power together no larger than `2 ^ 53`,
the coefficients of the reduced form are finite, and they are the exact sums over the
left side less those over the right side.  So the sides are equal just where the reduced
form vanishes, its degree is that of the difference of the sides, and up to degree two
the difference is the polynomial of its three coefficients. -/
theorem reduce_whole {left right : List Term}
    (whole : ∀ term ∈ left ++ right, term.value.isWhole = true ∧ |term.value.toRat| ≤ 10 ^ 12)
    (light : ∀ power, totalMagnitude (likeValues (left ++ right) power) ≤ 2 ^ 53) :
    (∀ power, ((ofSides left right).reduce.coefficient power).isFinite = true ∧
      ((ofSides left right).reduce.coefficient power).toRat =
        exactSum (likeValues left power) - exactSum (likeValues right power)) ∧
      (∀ x : ℚ, (polynomial left).eval x = (polynomial right).eval x ↔
        (polynomial (ofSides left right).reduce.left).eval x = 0) ∧
      (ofSides left right).reduce.degree.toNat = (polynomial left - polynomial right).natDegree ∧
      ((polynomial left - polynomial right).natDegree ≤ 2 →
        polynomial left - polynomial right =
          Polynomial.C (ofSides left right).coefficients.quadratic.toRat * Polynomial.X ^ 2 +
            Polynomial.C (ofSides left right).coefficients.linear.toRat * Polynomial.X +
              Polynomial.C (ofSides left right).coefficients.constant.toRat) := by
  have canonical : Canonical (ofSides left right).reduce.left := canonical_collectTerms _
  have same := polynomial_reduce whole light
  have amounts : ∀ power, ((ofSides left right).reduce.coefficient power).toRat =
      exactSum (likeValues left power) - exactSum (likeValues right power) := fun power =>
    (exactSum_likeValues canonical power [] .reduced).symm.trans
      (exactSum_reduce_whole whole light power)
  have finite := finite_reduce_whole whole light
  refine ⟨fun power => ⟨isFinite_coefficient finite power, amounts power⟩, fun x => ?_, ?_,
    fun low => ?_⟩
  · rw [same, Polynomial.eval_sub, sub_eq_zero]
  · have degree : (ofSides left right).reduce.degree =
        highestPower (ofSides left right).reduce.left := congrArg highestPower (List.append_nil _)
    rw [← same, natDegree_polynomial canonical finite, degree]
  · have coeff : ∀ power : UInt32, (polynomial left - polynomial right).coeff power.toNat =
        ((ofSides left right).reduce.coefficient power).toRat := fun power => by
      rw [Polynomial.coeff_sub, coeff_polynomial, coeff_polynomial, amounts]
    have quadratic : (polynomial left - polynomial right).coeff 2 = _ := coeff 2
    have linear : (polynomial left - polynomial right).coeff 1 = _ := coeff 1
    have constant : (polynomial left - polynomial right).coeff 0 = _ := coeff 0
    rw [Polynomial.as_sum_range_C_mul_X_pow' _ (Nat.lt_succ_of_le low), Finset.sum_range_succ,
      Finset.sum_range_succ, Finset.sum_range_one, quadratic, linear, constant, pow_zero, mul_one,
      pow_one]
    simp only [coefficients]
    ring

/-- The equation `1000000000000 * x - 999999999999 * x = 2`, whose tolerance for noise
is as large as the sum that has to be kept. -/
theorem reduce_whole_trillion :
    ((ofSides [⟨1000000000000, 1⟩, ⟨-999999999999, 1⟩] [⟨2, 0⟩]).reduce.coefficient 1).toRat = 1 ∧
      (ofSides [⟨1000000000000, 1⟩, ⟨-999999999999, 1⟩] [⟨2, 0⟩]).reduce.degree.toNat =
        (polynomial [⟨1000000000000, 1⟩, ⟨-999999999999, 1⟩] - polynomial [⟨2, 0⟩]).natDegree := by
  have larger := (Binary64.toRat_ofNat 1000000000000 (by decide)).2
  have smaller := (Binary64.toRat_ofNat 999999999999 (by decide)).2
  have two := (Binary64.toRat_ofNat 2 (by decide)).2
  obtain ⟨amounts, -, degree, -⟩ :=
    @reduce_whole [⟨1000000000000, 1⟩, ⟨-999999999999, 1⟩] [⟨2, 0⟩] (by
      have whole : (1000000000000 : Binary64).isWhole = true ∧
          (-999999999999 : Binary64).isWhole = true ∧ (2 : Binary64).isWhole = true := by
        decide +kernel
      simp only [List.cons_append, List.nil_append, List.forall_mem_cons, Binary64.toRat_neg,
        larger, smaller, two]
      refine ⟨⟨whole.1, ?_⟩, ⟨whole.2.1, ?_⟩, ⟨whole.2.2, ?_⟩, fun _ none => absurd none (by simp)⟩
        <;> norm_num) (by
      intro power
      simp only [List.cons_append, List.nil_append, likeValues_cons, totalMagnitude_append]
      split <;> split <;> simp [totalMagnitude, likeValues, larger, smaller, two] <;> norm_num)
  refine ⟨?_, degree⟩
  rw [(amounts 1).2]
  simp [likeValues, exactSum, larger, smaller]
  norm_num

end Quadratics.Equation
