import Quadratics.Equation.Reduction
import Quadratics.Proofs.Binary64.Zeros

/-!
# Collecting values, but for zeros

The sign of a zero among the values of a power, and even its presence, makes no
difference to what the values amount to (`collect_alike`, `collect_insert_zero`).
The second fact needs the threshold of noise to be small: a zero turns a value that
stood alone into one of two, and from then on it is compared with the largest of
them, which is itself.
-/

namespace Quadratics.Equation

set_option autoImplicit false

open Binary64 (Vanishes Alike larger)

/-! ## The threshold of noise -/

theorem isFinite_cancellationThreshold : cancellationThreshold.isFinite = true := by
  decide +kernel

theorem cancellationThreshold_le_one :
    cancellationThreshold.magnitude ≤ Binary64.unitsPerOne := by
  decide +kernel

/-! ## Totals -/

theorem foldl_add_alike {first second : Binary64} (alike : Alike first second)
    {values others : List Binary64} (pointwise : List.Forall₂ Alike values others) :
    Alike (values.foldl Binary64.add first) (others.foldl Binary64.add second) := by
  induction pointwise generalizing first second with
  | nil => exact alike
  | cons head _ ih => exact ih (alike.add head)

theorem forall₂_alike_refl (values : List Binary64) : List.Forall₂ Alike values values :=
  List.forall₂_same.mpr fun value _ => .refl value

theorem total_alike {values others : List Binary64}
    (pointwise : List.Forall₂ Alike values others) : Alike (total values) (total others) := by
  cases pointwise with
  | nil => exact .refl _
  | cons head tail => exact foldl_add_alike head tail

theorem total_insert_zero {zero : Binary64} (vanishes : zero.Vanishes)
    (front back : List Binary64) :
    Alike (total (front ++ zero :: back)) (total (front ++ back)) := by
  match front, back with
  | [], [] => exact .inr ⟨vanishes, Binary64.vanishes_zero⟩
  | [], next :: back =>
    exact foldl_add_alike (Binary64.alike_add_of_vanishes_left vanishes next)
      (forall₂_alike_refl back)
  | first :: front, back =>
    simp only [total, List.cons_append, List.foldl_append, List.foldl_cons]
    exact foldl_add_alike (Binary64.alike_add_of_vanishes vanishes _) (forall₂_alike_refl back)

/-! ## The largest magnitude -/

theorem largest_eq_foldl (values : List Binary64) :
    largest values = (values.map Binary64.abs).foldl larger 0 := by
  rw [largest, List.foldl_map]

theorem map_abs_eq {values others : List Binary64} (pointwise : List.Forall₂ Alike values others) :
    values.map Binary64.abs = others.map Binary64.abs := by
  induction pointwise with
  | nil => rfl
  | cons head _ ih => rw [List.map_cons, List.map_cons, head.abs_eq, ih]

theorem largest_alike {values others : List Binary64}
    (pointwise : List.Forall₂ Alike values others) : largest values = largest others := by
  rw [largest_eq_foldl, map_abs_eq pointwise, largest_eq_foldl]

/-- Nothing that has no minus sign is below zero. -/
theorem not_lt_zero {value : Binary64} (unsigned : value.negative = false) : ¬ value < 0 := by
  match value with
  | .finite _ _ _ _ =>
    rw [Binary64.lt_iff rfl Binary64.vanishes_zero.1, Binary64.vanishes_zero.units_eq,
      Binary64.units, unsigned]
    exact Int.not_lt.mpr (Int.natCast_nonneg _)
  | .infinity negative =>
    subst unsigned
    decide +kernel
  | .nan _ => exact Bool.false_ne_true

/-- A bound never has a minus sign. -/
theorem negative_larger {bound value : Binary64} (unsigned : bound.negative = false) :
    (larger bound value.abs).negative = false := by
  simp only [larger]
  split
  · exact Binary64.negative_abs value
  · split
    · exact Binary64.negative_abs value
    · exact unsigned

theorem negative_foldl_larger {bound : Binary64} (unsigned : bound.negative = false)
    (values : List Binary64) :
    ((values.map Binary64.abs).foldl larger bound).negative = false := by
  induction values generalizing bound with
  | nil => exact unsigned
  | cons value values ih => exact ih (negative_larger unsigned)

theorem isNaN_larger {bound value : Binary64} (number : bound.isNaN = false) :
    (larger bound value).isNaN = false := by
  simp only [larger]
  rw [if_neg (by rw [number]; exact Bool.false_ne_true)]
  split
  · rename_i below
    match bound, value with
    | _, .finite _ _ _ _ => rfl
    | _, .infinity _ => rfl
    | .finite _ _ _ _, .nan _ => cases below
    | .infinity _, .nan _ => cases below
  · exact number

theorem isNaN_foldl_larger {bound : Binary64} (number : bound.isNaN = false)
    (values : List Binary64) : (values.foldl larger bound).isNaN = false := by
  induction values generalizing bound with
  | nil => exact number
  | cons value values ih => exact ih (isNaN_larger number)

theorem larger_zero {bound : Binary64} (number : bound.isNaN = false)
    (unsigned : bound.negative = false) : larger bound 0 = bound := by
  rw [larger, if_neg (by rw [number]; exact Bool.false_ne_true), if_neg (not_lt_zero unsigned)]

theorem largest_insert_zero {zero : Binary64} (vanishes : zero.Vanishes)
    (front back : List Binary64) : largest (front ++ zero :: back) = largest (front ++ back) := by
  have unsigned : (0 : Binary64).negative = false := by decide +kernel
  have number : (0 : Binary64).isNaN = false := by decide +kernel
  simp only [largest_eq_foldl, List.map_append, List.map_cons, List.foldl_append, List.foldl_cons,
    vanishes.abs_eq]
  rw [larger_zero (isNaN_foldl_larger number _) (negative_foldl_larger unsigned _)]

/-- The largest magnitude of a single value is its own, unless it is no number. -/
theorem largest_singleton {value : Binary64} (number : value.isNaN = false) :
    largest [value] = value.abs := by
  show larger 0 value.abs = value.abs
  have zeroNumber : ¬ (0 : Binary64).isNaN = true := by decide +kernel
  rw [larger, if_neg zeroNumber]
  split
  · rfl
  · rename_i notBelow
    match value with
    | .finite negative significand exponent canonical =>
      rw [Binary64.lt_iff Binary64.vanishes_zero.1 rfl, Binary64.units_abs,
        Binary64.vanishes_zero.units_eq] at notBelow
      refine (Vanishes.abs_eq ⟨rfl, ?_⟩).symm
      omega
    | .infinity _ =>
      have below : (0 : Binary64) < .infinity false := by decide +kernel
      exact absurd below notBelow

/-! ## Noise -/

/-- A value that stands alone is never noise beside itself. -/
theorem not_noise_alone {sum value : Binary64} (alike : Alike sum value) :
    ¬ sum.abs < largest [value] * cancellationThreshold := by
  rw [alike.abs_eq]
  by_cases number : value.isNaN = false
  · rw [largest_singleton number]
    exact Binary64.not_abs_lt_scaled isFinite_cancellationThreshold cancellationThreshold_le_one
  · match value with
    | .nan _ => exact Bool.false_ne_true

theorem collect_singleton (value : Binary64) : collect [value] = value :=
  if_neg fun many => absurd many.1 (Nat.not_succ_le_self 1)

theorem collect_nil : collect [] = 0 :=
  if_neg fun many => absurd many.1 (by decide)

/-- **The signs of zeros make no difference.** -/
theorem collect_alike {values others : List Binary64}
    (pointwise : List.Forall₂ Alike values others) : Alike (collect values) (collect others) := by
  have totals := total_alike pointwise
  unfold collect cancels
  rw [pointwise.length_eq, largest_alike pointwise, totals.abs_eq]
  split
  · exact .refl 0
  · exact totals

/-- **A zero among the values makes no difference.** -/
theorem collect_insert_zero {zero : Binary64} (vanishes : zero.Vanishes)
    (front back : List Binary64) :
    Alike (collect (front ++ zero :: back)) (collect (front ++ back)) := by
  have totals := total_insert_zero vanishes front back
  have bounds := largest_insert_zero vanishes front back
  have longer : (front ++ zero :: back).length = (front ++ back).length + 1 := by
    rw [List.length_append, List.length_append, List.length_cons, Nat.add_assoc]
  rcases Nat.lt_or_ge (front ++ back).length 2 with few | many
  · -- The values were one or none, so the zero may make them two.
    have notNoise : cancels (total (front ++ zero :: back)) (front ++ zero :: back) = false ∨
        (front ++ zero :: back).length < 2 := by
      match remaining : front ++ back with
      | [] =>
        rw [remaining] at longer
        exact .inr (by rw [longer]; decide)
      | [value] =>
        rw [remaining] at totals bounds
        refine .inl (decide_eq_false ?_)
        rw [bounds]
        exact @not_noise_alone _ value totals
      | _ :: _ :: _ =>
        rw [remaining, List.length_cons, List.length_cons] at few
        omega
    have kept : collect (front ++ zero :: back) = total (front ++ zero :: back) := by
      refine if_neg ?_
      rintro ⟨long, noise⟩
      rcases notNoise with quiet | short
      · rw [quiet] at noise
        cases noise
      · omega
    have keptToo : collect (front ++ back) = total (front ++ back) :=
      if_neg fun both => absurd both.1 (Nat.not_le.mpr few)
    rw [kept, keptToo]
    exact totals
  · unfold collect cancels
    rw [bounds, totals.abs_eq]
    simp only [longer, many, Nat.le_succ_of_le many, true_and]
    split
    · exact .refl 0
    · exact totals

end Quadratics.Equation
