import Quadratics.Proofs.Equation.Mirrored

/-!
# Reflected equations

Putting `-x` for `x` changes the sign of each value at an odd power
(`Equation.reflected`).  The values of one power all change or all stay, so what they
amount to changes or stays with them (`collect_reflectValue`), and the reduced form of a
reflected equation is the reflected reduced form (`reduce_reflected`).
-/

namespace Quadratics

set_option autoImplicit false

open Binary64 (Alike Opposite)

/-! ## Reflection -/

/-- The value at a power when `-x` is put for `x`. -/
def reflectValue (power : UInt32) (value : Binary64) : Binary64 :=
  if power % 2 = 1 then -value else value

/-- The term when `-x` is put for `x`. -/
def Term.reflect (term : Term) : Term :=
  ⟨reflectValue term.power term.value, term.power⟩

/-- The equation when `-x` is put for `x`. -/
def Equation.reflected (equation : Equation) : Equation :=
  ⟨equation.left.map Term.reflect, equation.right.map Term.reflect, equation.form⟩

theorem reflectValue_reflectValue (power : UInt32) (value : Binary64) :
    reflectValue power (reflectValue power value) = value := by
  unfold reflectValue
  split
  · exact Binary64.neg_neg value
  · rfl

theorem reflectValue_neg (power : UInt32) (value : Binary64) :
    reflectValue power (-value) = -reflectValue power value := by
  unfold reflectValue
  split <;> rfl

namespace Term

theorem power_reflect (term : Term) : term.reflect.power = term.power := rfl

theorem reflect_involutive : Function.Involutive reflect :=
  fun term => congrArg (mk · term.power) (reflectValue_reflectValue term.power term.value)

theorem isZero_reflect (term : Term) : term.reflect.isZero = term.isZero := by
  unfold reflect reflectValue
  split
  · exact Equation.isZero_neg term
  · rfl

end Term

namespace Equation

/-! ## What reflected values amount to -/

theorem balance_reflected (left right : List Term) (power : UInt32) :
    balance (left.map Term.reflect) (right.map Term.reflect) power =
      (balance left right power).map (reflectValue power) := by
  have like : ∀ terms : List Term, likeValues (terms.map Term.reflect) power =
      (likeValues terms power).map (reflectValue power) :=
    fun terms => likeValues_map reflectValue terms power
  rw [balance, balance, like, like, List.map_append, List.map_map, List.map_map]
  refine congrArg _ (List.map_congr_left fun value _ => ?_)
  exact (reflectValue_neg power value).symm

/-- **Reflected values of one power amount to the reflected value.** -/
theorem collect_reflectValue {values : List Binary64}
    (finite : ∀ value ∈ values, value.isFinite = true) (power : UInt32) :
    Alike (collect (values.map (reflectValue power))) (reflectValue power (collect values)) := by
  by_cases odd : power % 2 = 1
  · have negates : reflectValue power = fun value => -value := funext fun _ => if_pos odd
    rw [negates]
    exact (collect_opposite finite).alike
  · have keeps : reflectValue power = id := funext fun _ => if_neg odd
    rw [keeps, List.map_id]
    exact .refl _

/-! ## Reduced forms of reflected equations -/

section Reflected

variable {equation : Equation} (written : equation.form = .written)
  (finite : equation.FiniteValues)
include written finite

/-- **The reduced form of a reflected equation is the reflected reduced form.** -/
theorem reduce_reflected : equation.reflected.reduce = equation.reduce.reflected := by
  have collected : collectTerms equation.reflected.moved =
      (collectTerms equation.moved).map Term.reflect := by
    apply collectTerms_map Term.reflect_involutive Term.power_reflect Term.isZero_reflect
    intro power
    have same : likeValues equation.reflected.moved power =
        (likeValues equation.moved power).map (reflectValue power) := by
      have balances := balance_reflected equation.left equation.right power
      rw [← likeValues_moved, ← likeValues_moved] at balances
      exact balances
    have alike := collect_reflectValue (isFinite_balance finite power) power
    rw [← likeValues_moved] at alike
    rw [same]
    exact alike
  have reflectedWritten : equation.reflected.form = .written := written
  simp only [reduce, written, reflectedWritten, collected]
  simp only [reflected, List.map_nil]

/-- The degree stays. -/
theorem degree_reflected : equation.reflected.reduce.degree = equation.reduce.degree := by
  rw [reduce_reflected written finite, degree, degree, reflected, ← List.map_append]
  exact highestPower_map Term.power_reflect _

/-- A power has a number for its coefficient, which is reflected, or none. -/
theorem coefficient_reflected (power : UInt32) : ∃ found : Option Binary64,
    equation.reduce.coefficient power = found.getD 0 ∧
      equation.reflected.reduce.coefficient power = (found.map (reflectValue power)).getD 0 ∧
      ∀ value ∈ found, value.isNaN = false := by
  have reflectedFound : equation.reduce.reflected.left.find? (fun term => term.power == power) =
      (equation.reduce.left.find? fun term => term.power == power).map Term.reflect :=
    List.find?_map
  rw [reduce_reflected written finite, coefficient, coefficient, reflectedFound]
  cases found : equation.reduce.left.find? fun term => term.power == power with
  | none => exact ⟨none, rfl, rfl, fun _ none => by cases none⟩
  | some term =>
    have matching := List.find?_some found
    have number := isNaN_of_mem_reduce written finite term (List.mem_of_find?_eq_some found)
    refine ⟨some term.value, rfl, ?_, fun value same => Option.some.inj same ▸ number⟩
    rw [← beq_iff_eq.mp matching]
    rfl

/-- **The coefficient of an even power stays.** -/
theorem coefficient_reflected_even {power : UInt32} (even : ¬ power % 2 = 1) :
    equation.reflected.reduce.coefficient power = equation.reduce.coefficient power := by
  obtain ⟨found, before, after, -⟩ := coefficient_reflected written finite power
  have keeps : reflectValue power = id := funext fun _ => if_neg even
  rw [before, after, keeps, Option.map_id_fun, id]

/-- **The coefficient of an odd power changes its sign.** -/
theorem coefficient_reflected_odd {power : UInt32} (odd : power % 2 = 1) :
    Opposite (equation.reduce.coefficient power)
      (equation.reflected.reduce.coefficient power) := by
  obtain ⟨found, before, after, numbers⟩ := coefficient_reflected written finite power
  have negates : reflectValue power = fun value => -value := funext fun _ => if_pos odd
  rw [before, after, negates]
  cases found with
  | none => exact Binary64.opposite_zero
  | some value => exact Binary64.opposite_neg (numbers value rfl)

end Reflected

end Equation

end Quadratics
