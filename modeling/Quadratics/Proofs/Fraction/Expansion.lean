import Mathlib.Tactic
import Quadratics.Fraction

/-!
# What every step of an expansion keeps

The pair that is still to be expanded and the two convergents always make up the
number that was expanded: that is `Expansion.Keeps`.  It bounds every convergent by
that number, and where the number is in lowest terms it shows that a search with a
smaller bound stops before the expansion is complete (`walk_stops`): the last
convergent keeps within the bound, and the next one would not.
-/

namespace Quadratics.Fraction.Expansion

set_option autoImplicit false

/-- What holds of the expansion of a quotient in lowest terms within a bound. -/
structure Keeps (numerator denominator bound : Nat) (state : Expansion) : Prop where
  numerators : state.numerator * state.dividend + state.olderNumerator * state.divisor = numerator
  denominators :
    state.denominator * state.dividend + state.olderDenominator * state.divisor = denominator
  coprime : state.dividend.Coprime state.divisor
  within : state.denominator ≤ bound ∧ state.olderDenominator ≤ bound
  /-- Past the start the divisor is the smaller one of the pair. -/
  opened : state = start numerator denominator ∨
    0 < state.denominator ∧ state.divisor < state.dividend

variable {numerator denominator bound : Nat} {state : Expansion}

theorem keeps_start (lowest : numerator.Coprime denominator) (positive : 1 ≤ bound) :
    Keeps numerator denominator bound (start numerator denominator) where
  numerators := by simp [start]
  denominators := by simp [start]
  coprime := lowest
  within := ⟨Nat.zero_le _, positive⟩
  opened := .inl rfl

/-! ## One step -/

theorem divided (state : Expansion) :
    state.quotient * state.divisor + state.next.divisor = state.dividend :=
  Nat.div_add_mod' state.dividend state.divisor

/-- A quotient is at least one, except perhaps the first. -/
theorem quotient_pos (positive : 0 < state.divisor) (smaller : state.divisor < state.dividend) :
    0 < state.quotient :=
  Nat.div_pos smaller.le positive

theorem denominator_start (numerator denominator : Nat) :
    (start numerator denominator).next.denominator = 1 := by
  simp [start, next]

/-- Every convergent after the formal ones has a denominator. -/
theorem Keeps.next_denominator_pos (keeps : Keeps numerator denominator bound state)
    (positive : 0 < state.divisor) : 0 < state.next.denominator := by
  rcases keeps.opened with rfl | ⟨denominatorPos, smaller⟩
  · rw [denominator_start]
    exact Nat.one_pos
  · have step := Nat.mul_pos (quotient_pos positive smaller) denominatorPos
    exact Nat.add_pos_right _ step

/-- **A step within the bound keeps what holds.** -/
theorem Keeps.next (keeps : Keeps numerator denominator bound state)
    (positive : 0 < state.divisor) (inside : state.next.denominator ≤ bound) :
    Keeps numerator denominator bound state.next where
  numerators := by
    rw [← keeps.numerators, ← divided state]
    simp only [Expansion.next]
    ring
  denominators := by
    rw [← keeps.denominators, ← divided state]
    simp only [Expansion.next]
    ring
  coprime := by
    have same : (state.dividend % state.divisor).gcd state.divisor = 1 := by
      rw [← Nat.gcd_rec, Nat.gcd_comm]
      exact keeps.coprime
    exact (Nat.gcd_comm _ _).trans same
  within := ⟨inside, keeps.within.1⟩
  opened := .inr ⟨keeps.next_denominator_pos positive, Nat.mod_lt _ positive⟩

/-! ## Bounds -/

/-- The next convergent is made up of numbers no larger than those expanded. -/
theorem next_numerator_mul (keeps : Keeps numerator denominator bound state) :
    state.next.numerator * state.divisor + state.numerator * state.next.divisor = numerator := by
  rw [← keeps.numerators, ← divided state]
  simp only [Expansion.next]
  ring

theorem next_denominator_mul (keeps : Keeps numerator denominator bound state) :
    state.next.denominator * state.divisor + state.denominator * state.next.divisor =
      denominator := by
  rw [← keeps.denominators, ← divided state]
  simp only [Expansion.next]
  ring

theorem Keeps.next_numerator_le (keeps : Keeps numerator denominator bound state)
    (positive : 0 < state.divisor) : state.next.numerator ≤ numerator := by
  have made := next_numerator_mul keeps
  have grown := Nat.le_mul_of_pos_right state.next.numerator positive
  omega

theorem Keeps.next_denominator_le (keeps : Keeps numerator denominator bound state)
    (positive : 0 < state.divisor) : state.next.denominator ≤ denominator := by
  have made := next_denominator_mul keeps
  have grown := Nat.le_mul_of_pos_right state.next.denominator positive
  omega

/-- What is divided is no larger than the numbers expanded. -/
theorem Keeps.dividend_le (keeps : Keeps numerator denominator bound state) :
    state.dividend ≤ max numerator denominator := by
  rcases keeps.opened with rfl | ⟨positive, -⟩
  · exact le_max_left _ _
  · have made := keeps.denominators
    have grown := Nat.le_mul_of_pos_left state.dividend positive
    exact le_max_of_le_right (by omega)

/-! ## The whole search -/

/-- What holds where a search stops short of the complete expansion. -/
structure Stops (numerator denominator bound : Nat) (state : Expansion) : Prop where
  keeps : Keeps numerator denominator bound state
  divisor_pos : 0 < state.divisor
  beyond : bound < state.next.denominator

/-- A complete expansion has the denominator of the number expanded. -/
theorem Keeps.denominator_eq (keeps : Keeps numerator denominator bound state)
    (complete : state.divisor = 0) : state.denominator = denominator := by
  have unit : state.dividend = 1 := by
    have coprime := keeps.coprime
    rwa [complete, Nat.coprime_zero_right] at coprime
  have made := keeps.denominators
  rw [complete, unit] at made
  omega

/-- **A search with a bound below the denominator stops before the expansion is
complete.** -/
theorem walk_stops (keeps : Keeps numerator denominator bound state)
    (short : bound < denominator) : Stops numerator denominator bound (state.walk bound) := by
  induction length : state.divisor using Nat.strong_induction_on generalizing state with
  | _ size ih =>
    subst length
    have positive : 0 < state.divisor := by
      by_contra complete
      have same := keeps.denominator_eq (by omega)
      have inside := keeps.within.1
      omega
    rw [walk, if_neg (by omega)]
    split
    · rename_i beyond
      exact ⟨keeps, positive, beyond⟩
    · rename_i inside
      have smaller : state.next.divisor < state.divisor := Nat.mod_lt _ positive
      exact ih _ smaller (keeps.next positive (Nat.not_lt.mp inside)) rfl

namespace Stops

variable (stops : Stops numerator denominator bound state)
include stops

/-- The last convergent has a denominator. -/
theorem denominator_pos (positive : 1 ≤ bound) : 0 < state.denominator := by
  rcases stops.keeps.opened with rfl | ⟨denominatorPos, -⟩
  · have beyond := stops.beyond
    rw [denominator_start] at beyond
    omega
  · exact denominatorPos

/-- The numerator of the last convergent is no larger than the number expanded. -/
theorem numerator_le (positive : 1 ≤ bound) : state.numerator ≤ numerator := by
  rcases stops.keeps.opened with rfl | ⟨-, smaller⟩
  · have denominatorPos := stops.denominator_pos positive
    exact absurd denominatorPos (Nat.lt_irrefl 0)
  · have made := stops.keeps.numerators
    have grown := Nat.le_mul_of_pos_right state.numerator (Nat.zero_lt_of_lt smaller)
    omega

/-- The semiconvergent takes fewer steps than the next convergent. -/
theorem semiSteps_lt (positive : 1 ≤ bound) : state.semiSteps bound < state.quotient := by
  have beyond := stops.beyond
  have older := stops.keeps.within.2
  simp only [semiSteps]
  rw [Nat.div_lt_iff_lt_mul (stops.denominator_pos positive)]
  simp only [Expansion.next] at beyond
  omega

/-- The semiconvergent keeps within the bound, and its numerator below the number
expanded. -/
theorem semiconvergent_bounds (positive : 1 ≤ bound) :
    state.olderNumerator + state.semiSteps bound * state.numerator ≤ numerator ∧
      state.olderDenominator + state.semiSteps bound * state.denominator ≤ bound := by
  have fewer := stops.semiSteps_lt positive
  have older := stops.keeps.within.2
  constructor
  · have next := stops.keeps.next_numerator_le stops.divisor_pos
    have smaller := Nat.mul_le_mul_right state.numerator fewer.le
    simp only [Expansion.next] at next
    omega
  · have divided := Nat.div_mul_le_self (bound - state.olderDenominator) state.denominator
    simp only [semiSteps]
    omega

/-- The semiconvergent has a denominator. -/
theorem semiconvergent_pos (positive : 1 ≤ bound) :
    0 < state.olderDenominator + state.semiSteps bound * state.denominator := by
  have denominatorPos := stops.denominator_pos positive
  by_contra none
  have older : state.olderDenominator = 0 := by omega
  have noSteps : state.semiSteps bound * state.denominator = 0 := by omega
  rcases Nat.mul_eq_zero.mp noSteps with zero | zero
  · rw [semiSteps, older, Nat.sub_zero, Nat.div_eq_zero_iff] at zero
    have inside := stops.keeps.within.1
    omega
  · omega

end Stops

end Quadratics.Fraction.Expansion
