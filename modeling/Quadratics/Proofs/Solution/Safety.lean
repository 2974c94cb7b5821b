import Quadratics.Proofs.Equation.Obtained

/-!
# Solving is no misuse

The solver asks three promises of its callers: that the leading coefficient of a
linear and of a quadratic polynomial does not vanish, and that some denominator is
allowed.  An equation keeps the first two by itself.  The degree of a reduced
equation is the power of one of its terms (`exists_mem_highestPower`), and its terms
do not vanish, so that the coefficient found at the degree does not either
(`WellFormed.leading_nonzero`).  With the third promise every equation that can be
obtained has a report (`WellFormed.solve_succeeds`), and one that was read has one
without the outcome of an unsupported degree.
-/

namespace Quadratics

set_option autoImplicit false

/-! ## Roots -/

section Allowed

variable {settings : Settings} (allowed : 1 ≤ settings.denominatorBound)
include allowed

theorem RealRoot.fractionBeside_succeeds (value : Binary64) :
    ∃ fraction, RealRoot.fractionBeside value settings = .ok fraction := by
  simp only [RealRoot.fractionBeside]
  split
  · exact ⟨_, rfl⟩
  · rw [Fraction.closest?, if_neg (Int.not_lt.mpr allowed)]
    exact ⟨_, rfl⟩

theorem RealRoot.ofValue_succeeds (value : Binary64) :
    ∃ root, RealRoot.ofValue value settings = .ok root := by
  obtain ⟨fraction, found⟩ := RealRoot.fractionBeside_succeeds allowed (value + 0)
  refine ⟨⟨value + 0, fraction, settings.places⟩, ?_⟩
  simp only [RealRoot.ofValue, found, Except.map]

theorem Outcome.ofRoot_succeeds (value : Binary64) :
    ∃ outcome, Outcome.ofRoot value settings = .ok outcome ∧ outcome ≠ .unsupported := by
  obtain ⟨root, found⟩ := RealRoot.ofValue_succeeds allowed value
  simp only [Outcome.ofRoot]
  split
  · simp [found, Except.map]
  · simp

theorem Outcome.ofRoots_succeeds (first second : Binary64) :
    ∃ outcome, Outcome.ofRoots first second settings = .ok outcome ∧ outcome ≠ .unsupported := by
  obtain ⟨_, foundFirst⟩ := RealRoot.ofValue_succeeds allowed first
  obtain ⟨_, foundSecond⟩ := RealRoot.ofValue_succeeds allowed second
  simp only [Outcome.ofRoots]
  split
  · simp [foundFirst, foundSecond, Except.map]
  · simp

end Allowed

theorem Outcome.ofConjugates_ne_unsupported (real radicand denominator : Binary64) (places : Nat) :
    Outcome.ofConjugates real radicand denominator places ≠ .unsupported := by
  simp only [Outcome.ofConjugates]
  split <;> simp

/-! ## Polynomials of each degree -/

namespace Coefficients

variable {coefficients : Coefficients} {settings : Settings}

theorem solveConstant_ne_unsupported : coefficients.solveConstant ≠ .unsupported := by
  simp only [solveConstant]
  split <;> simp

theorem solveLinear_succeeds (allowed : 1 ≤ settings.denominatorBound)
    (nonzero : coefficients.linear.sameNumber 0 = false) :
    ∃ outcome, coefficients.solveLinear settings = .ok outcome ∧ outcome ≠ .unsupported := by
  simp only [solveLinear]
  rw [nonzero]
  exact Outcome.ofRoot_succeeds allowed _

theorem solveQuadratic_succeeds (allowed : 1 ≤ settings.denominatorBound)
    (nonzero : coefficients.quadratic.sameNumber 0 = false) :
    ∃ outcome, coefficients.solveQuadratic settings = .ok outcome ∧ outcome ≠ .unsupported := by
  simp only [solveQuadratic]
  rw [nonzero]
  cases coefficients.discriminant? with
  | none => simp
  | some discriminant =>
    show ∃ outcome, coefficients.solveBy discriminant settings = .ok outcome ∧ _
    simp only [solveBy]
    split
    · exact Outcome.ofRoots_succeeds allowed _ _
    · split
      · exact Outcome.ofRoot_succeeds allowed _
      · exact ⟨_, rfl, Outcome.ofConjugates_ne_unsupported _ _ _ _⟩

/-- **With a leading coefficient that does not vanish there is a report**, and its
outcome is unsupported just where the degree is too high. -/
theorem solve_succeeds {degree : UInt32} (allowed : 1 ≤ settings.denominatorBound)
    (linear : degree = 1 → coefficients.linear.sameNumber 0 = false)
    (quadratic : degree = 2 → coefficients.quadratic.sameNumber 0 = false) :
    ∃ report, coefficients.solve degree settings = .ok report ∧ report.degree = degree ∧
      (report.outcome = .unsupported → Equation.solvableDegree < degree) := by
  have outcome : ∃ outcome, coefficients.outcome degree settings = .ok outcome ∧
      (outcome = .unsupported → Equation.solvableDegree < degree) := by
    simp only [Coefficients.outcome]
    split
    · exact ⟨_, rfl, fun unsupported => absurd unsupported solveConstant_ne_unsupported⟩
    · split
      · rename_i isOne
        obtain ⟨outcome, solved, supported⟩ := solveLinear_succeeds allowed (linear isOne)
        exact ⟨outcome, solved, fun unsupported => absurd unsupported supported⟩
      · split
        · rename_i isTwo
          obtain ⟨outcome, solved, supported⟩ := solveQuadratic_succeeds allowed (quadratic isTwo)
          exact ⟨outcome, solved, fun unsupported => absurd unsupported supported⟩
        · rename_i notZero notOne notTwo
          refine ⟨.unsupported, rfl, fun _ => ?_⟩
          simp only [Equation.solvableDegree, UInt32.lt_iff_toNat_lt, ← UInt32.toNat_inj,
            UInt32.reduceToNat] at notZero notOne notTwo ⊢
          omega
  obtain ⟨outcome, solved, unsupported⟩ := outcome
  simp only [Coefficients.solve]
  rw [solved]
  exact ⟨_, rfl, rfl, unsupported⟩

end Coefficients

/-! ## Equations -/

namespace Equation

/-- **The coefficient at the degree of a reduced equation does not vanish.** -/
theorem WellFormed.leading_nonzero {equation : Equation} (wellFormed : equation.WellFormed)
    (positive : equation.reduce.degree ≠ 0) :
    (equation.reduce.coefficient equation.reduce.degree).sameNumber 0 = false := by
  rw [wellFormed.reduce_eq] at positive ⊢
  have degree_eq : degree ⟨collectTerms equation.moved, [], .reduced⟩ =
      highestPower (collectTerms equation.moved) := congrArg highestPower (List.append_nil _)
  rw [degree_eq] at positive ⊢
  obtain ⟨leading, member, isLeading⟩ := exists_mem_highestPower positive
  simp only [coefficient]
  split
  · rename_i found isFound
    exact (canonical_collectTerms equation.moved).nonzero found (List.mem_of_find?_eq_some isFound)
  · rename_i missing
    have none := List.find?_eq_none.mp missing leading member
    exact absurd (beq_iff_eq.mpr isLeading) none

/-- **Solving is no misuse of the solver**, if some denominator is allowed. -/
theorem WellFormed.solve_succeeds {equation : Equation} (wellFormed : equation.WellFormed)
    {settings : Settings} (allowed : 1 ≤ settings.denominatorBound) :
    ∃ report, equation.solve settings = .ok report ∧ report.degree = equation.reduce.degree ∧
      (report.outcome = .unsupported → solvableDegree < equation.reduce.degree) := by
  apply Coefficients.solve_succeeds allowed
  · intro isOne
    have nonzero := wellFormed.leading_nonzero (by simp [isOne])
    rwa [isOne] at nonzero
  · intro isTwo
    have nonzero := wellFormed.leading_nonzero (by simp [isTwo])
    rwa [isTwo] at nonzero

/-- The reduced form of an equation that was read has a degree that can be solved. -/
theorem degree_le_of_read {source : String} {equation : Equation}
    (accepted : Equation.read source = .ok equation) :
    equation.reduce.degree ≤ solvableDegree := by
  obtain ⟨left, right, rfl, workable⟩ := exists_ofSides_of_read accepted
  have unobjected := objection_eq_none_iff.mpr workable
  unfold objection at unobjected
  dsimp only at unobjected
  split at unobjected
  · cases unobjected
  · split at unobjected
    · cases unobjected
    · exact UInt32.not_lt.mp ‹_›

end Equation

end Quadratics
