import Quadratics.Proofs.Equation.Reading
import Quadratics.Solution.Session

/-!
# The equations that can be obtained

An equation is written out by its sides, or read from a text, and then taken
through steps, each of which leaves it reduced.  All that a reduced equation can
have on its left side is a canonical list, and it has nothing on its right side
(`Obtained.wellFormed`).  Whether it was reduced before or not, its reduced form is
then what its moved terms collect to (`WellFormed.reduce_eq`).
-/

namespace Quadratics.Equation

set_option autoImplicit false

/-- The equations that are written, read, or left by a step. -/
inductive Obtained : Equation → Prop where
  | built (left right : List Term) : Obtained (ofSides left right)
  | read {source : String} {equation : Equation} (isRead : read source = .ok equation) :
      Obtained equation
  | stepped {equation : Equation} (step : Step) (obtained : Obtained equation) :
      Obtained (step.perform equation).2

/-- An equation is not marked as reduced unless it is. -/
def WellFormed (equation : Equation) : Prop :=
  equation.form = .reduced → equation.right = [] ∧ Canonical equation.left

theorem wellFormed_ofSides (left right : List Term) : (ofSides left right).WellFormed := by
  intro reduced
  cases reduced

theorem WellFormed.reduce {equation : Equation} (wellFormed : equation.WellFormed) :
    equation.reduce.WellFormed := by
  obtain ⟨left, right, form⟩ := equation
  cases form with
  | reduced => exact wellFormed
  | written =>
    intro _
    exact ⟨rfl, canonical_collectTerms _⟩

/-- An equation that is read is one that is written out. -/
theorem exists_ofSides_of_read {source : String} {equation : Equation}
    (isRead : Equation.read source = .ok equation) :
    ∃ left right, equation = ofSides left right ∧ equation.Workable := by
  obtain ⟨_, _, left, right, -, -, -, -, -, rfl, workable⟩ := readCharacters_eq_ok_iff.mp isRead
  exact ⟨left, right, rfl, workable⟩

/-- **Whatever is obtained is well formed.** -/
theorem Obtained.wellFormed {equation : Equation} (obtained : Obtained equation) :
    equation.WellFormed := by
  induction obtained with
  | built left right => exact wellFormed_ofSides left right
  | read isRead =>
    obtain ⟨left, right, rfl, -⟩ := exists_ofSides_of_read isRead
    exact wellFormed_ofSides left right
  | stepped step _ ih => exact ih.reduce

/-- **The reduced form is what the moved terms collect to**, also where it is
reached already. -/
theorem WellFormed.reduce_eq {equation : Equation} (wellFormed : equation.WellFormed) :
    equation.reduce = ⟨collectTerms equation.moved, [], .reduced⟩ := by
  obtain ⟨left, right, form⟩ := equation
  cases form with
  | written => rfl
  | reduced =>
    obtain ⟨none, canonical⟩ := wellFormed rfl
    change right = [] at none
    subst none
    have moved : moved ⟨left, [], .reduced⟩ = left := List.append_nil left
    rw [moved, collectTerms_of_canonical canonical]
    rfl

/-- Reducing twice is reducing once. -/
theorem reduce_reduce (equation : Equation) : equation.reduce.reduce = equation.reduce := by
  obtain ⟨left, right, form⟩ := equation
  cases form <;> rfl

end Quadratics.Equation
