import Quadratics.Proofs.Fraction.Neighbours

/-!
# The turns of the search

The loop of the search is followed here from turn to turn, on the words of 64 bits in which
it runs.  `Reached` says in which states a turn begins.  Such a state holds the words of an
expansion (`Reached.exists_expansion`), and what every step of an expansion keeps bounds all
that a turn computes from it (`turning_ofExpansion`).

A turn either goes on with a smaller divisor, which is not zero yet, or leaves because the
next convergent would exceed the bound.  The other exit of the loop, at a divisor of zero, is
never taken: there the convergent is the number expanded, whose denominator is beyond the
bound (`Keeps.next_divisor_pos`).

Where the loop is left, the two candidates have cross products that differ by one, and the
number expanded lies strictly between them (`left_ofExpansion`).
-/

namespace Quadratics.Fraction

set_option autoImplicit false

/-! ## Expansions that are not complete -/

namespace Expansion

variable {numerator denominator bound : Nat} {state : Expansion}

/-- **Within a bound below the denominator an expansion is not complete.** -/
theorem Keeps.next_divisor_pos (keeps : Keeps numerator denominator bound state)
    (positive : 0 < state.divisor) (inside : state.next.denominator ≤ bound)
    (short : bound < denominator) : 0 < state.next.divisor := by
  by_contra complete
  have whole := (keeps.next positive inside).denominator_eq (by omega)
  omega

/-- A convergent is no larger than the number expanded, but for the formal one. -/
theorem Keeps.numerator_le (keeps : Keeps numerator denominator bound state) :
    state.numerator ≤ max numerator 1 := by
  rcases keeps.opened with rfl | ⟨-, smaller⟩
  · exact le_max_right _ _
  · have made := keeps.numerators
    have grown := Nat.le_mul_of_pos_right state.numerator (Nat.zero_lt_of_lt smaller)
    exact le_max_of_le_left (by omega)

theorem Keeps.olderNumerator_le (keeps : Keeps numerator denominator bound state)
    (positive : 0 < state.divisor) : state.olderNumerator ≤ numerator := by
  have made := keeps.numerators
  have grown := Nat.le_mul_of_pos_right state.olderNumerator positive
  omega

end Expansion

namespace Words

/-! ## What holds of a turn -/

/-- The variables of the loop before its first turn. -/
def State.entry (numerator denominator : Int) : State :=
  ⟨1, 0, 0, 1, numerator, denominator⟩

/-- The quotient that a turn computes. -/
def State.quotient (state : State) : Int :=
  state.dividend.tdiv state.divisor

/-- The numerator of the next convergent. -/
def State.nextNumerator (state : State) : Int :=
  state.olderNumerator + state.quotient * state.numerator

/-- The denominator of the next convergent. -/
def State.nextDenominator (state : State) : Int :=
  state.olderDenominator + state.quotient * state.denominator

/-- How often the last convergent is added to the older one after the loop. -/
def State.semiSteps (bound : Int) (state : State) : Int :=
  (bound - state.olderDenominator).tdiv state.denominator

/-- The numerator of the semiconvergent. -/
def State.semiNumerator (bound : Int) (state : State) : Int :=
  state.olderNumerator + state.semiSteps bound * state.numerator

/-- The denominator of the semiconvergent. -/
def State.semiDenominator (bound : Int) (state : State) : Int :=
  state.olderDenominator + state.semiSteps bound * state.denominator

/-- The states in which a turn of the loop begins. -/
inductive Reached (bound : Int) (first : State) : State → Prop where
  /-- The loop is entered. -/
  | entered : Reached bound first first
  /-- A turn goes on to the next one. -/
  | again {state next : State} (reached : Reached bound first state)
      (goesOn : turn bound state = .ok (.again next)) : Reached bound first next

/-- What holds where a turn of the loop begins, for the expansion of a quotient. -/
structure Turning (numerator denominator bound : Int) (state : State) : Prop where
  divisor_pos : 0 < state.divisor
  numerator_mem : state.numerator ∈ Set.Icc 0 (max numerator 1)
  olderNumerator_mem : state.olderNumerator ∈ Set.Icc 0 (max numerator 1)
  denominator_mem : state.denominator ∈ Set.Icc 0 denominator
  olderDenominator_mem : state.olderDenominator ∈ Set.Icc 0 denominator
  quotient_mul_numerator_mem : state.quotient * state.numerator ∈ Set.Icc 0 (max numerator 1)
  quotient_mul_denominator_mem : state.quotient * state.denominator ∈ Set.Icc 0 denominator
  quotient_mul_divisor_mem : state.quotient * state.divisor ∈ Set.Icc 0 (max numerator denominator)
  nextNumerator_mem : state.nextNumerator ∈ Set.Icc 0 (max numerator 1)
  nextDenominator_mem : state.nextDenominator ∈ Set.Icc 0 denominator
  /-- The turn goes on with a smaller divisor, or leaves with the convergents it began with
  because the next one is beyond the bound. -/
  outcome : (∃ next, turn bound state = .ok (.again next) ∧ next.divisor < state.divisor) ∨
    turn bound state = .ok (.leave state) ∧ bound < state.nextDenominator

/-- What holds where the loop is left. -/
structure Left (numerator denominator bound : Int) (state : State) : Prop where
  denominator_pos : 1 ≤ state.denominator
  semiSteps_nonneg : 0 ≤ state.semiSteps bound
  semiSteps_mul_numerator_mem :
    state.semiSteps bound * state.numerator ∈ Set.Icc 0 (max numerator 1)
  semiSteps_mul_denominator_mem :
    state.semiSteps bound * state.denominator ∈ Set.Icc 0 denominator
  semiNumerator_mem : state.semiNumerator bound ∈ Set.Icc 0 (max numerator 1)
  semiDenominator_mem : state.semiDenominator bound ∈ Set.Icc 1 bound
  unimodular : |state.numerator * state.semiDenominator bound -
    state.denominator * state.semiNumerator bound| = 1
  /-- The number expanded lies strictly between the candidates. -/
  between : (numerator : ℚ) / denominator ∈ Set.uIoo ((state.numerator : ℚ) / state.denominator)
    (state.semiNumerator bound / state.semiDenominator bound)

/-! ## The words of an expansion -/

theorem natCast_mem_Icc {value limit : Nat} (le : value ≤ limit) :
    (value : Int) ∈ Set.Icc 0 (limit : Int) :=
  ⟨Int.natCast_nonneg value, Int.ofNat_le.mpr le⟩

theorem natCast_mem_Icc_max {value limit other : Nat} (le : value ≤ max limit other) :
    (value : Int) ∈ Set.Icc 0 (max (limit : Int) other) := by
  rw [← Nat.cast_max]
  exact natCast_mem_Icc le

section Expansion

variable {numerator denominator bound : Nat} {expansion : Expansion}

theorem quotient_ofExpansion (expansion : Expansion) :
    (State.ofExpansion expansion).quotient = (expansion.quotient : Nat) :=
  Int.ofNat_tdiv expansion.dividend expansion.divisor

theorem nextNumerator_ofExpansion (expansion : Expansion) :
    (State.ofExpansion expansion).nextNumerator = (expansion.next.numerator : Nat) := by
  rw [State.nextNumerator, quotient_ofExpansion, Expansion.next, Int.natCast_add, Int.natCast_mul]
  rfl

theorem nextDenominator_ofExpansion (expansion : Expansion) :
    (State.ofExpansion expansion).nextDenominator = (expansion.next.denominator : Nat) := by
  rw [State.nextDenominator, quotient_ofExpansion, Expansion.next, Int.natCast_add,
    Int.natCast_mul]
  rfl

theorem semiSteps_ofExpansion (keeps : expansion.Keeps numerator denominator bound) :
    (State.ofExpansion expansion).semiSteps bound = (expansion.semiSteps bound : Nat) := by
  have room : (bound : Int) - expansion.olderDenominator =
      (bound - expansion.olderDenominator : Nat) := (Int.natCast_sub keeps.within.2).symm
  show ((bound : Int) - expansion.olderDenominator).tdiv expansion.denominator = _
  rw [room]
  exact Int.ofNat_tdiv _ _

theorem semiNumerator_ofExpansion (keeps : expansion.Keeps numerator denominator bound) :
    (State.ofExpansion expansion).semiNumerator bound =
      (expansion.olderNumerator + expansion.semiSteps bound * expansion.numerator : Nat) := by
  rw [State.semiNumerator, semiSteps_ofExpansion keeps, Int.natCast_add, Int.natCast_mul]
  rfl

theorem semiDenominator_ofExpansion (keeps : expansion.Keeps numerator denominator bound) :
    (State.ofExpansion expansion).semiDenominator bound =
      (expansion.olderDenominator + expansion.semiSteps bound * expansion.denominator : Nat) := by
  rw [State.semiDenominator, semiSteps_ofExpansion keeps, Int.natCast_add, Int.natCast_mul]
  rfl

/-- **A turn goes on within the bound, and leaves beyond it.** -/
theorem turn_eq (keeps : expansion.Keeps numerator denominator bound)
    (positive : 0 < expansion.divisor) (short : bound < denominator)
    (numeratorSmall : numerator < wordLimit) (denominatorSmall : denominator < wordLimit) :
    turn bound (.ofExpansion expansion) =
      .ok (if bound < expansion.next.denominator then .leave (.ofExpansion expansion)
        else .again (.ofExpansion expansion.next)) := by
  rw [turn_ofExpansion keeps positive numeratorSmall denominatorSmall]
  split
  · rfl
  · rename_i inside
    have incomplete := keeps.next_divisor_pos positive (Nat.not_lt.mp inside) short
    rw [if_neg incomplete.ne']

/-- **What a turn computes is bounded by the number expanded.** -/
theorem turning_ofExpansion (keeps : expansion.Keeps numerator denominator bound)
    (positive : 0 < expansion.divisor) (short : bound < denominator)
    (numeratorSmall : numerator < wordLimit) (denominatorSmall : denominator < wordLimit) :
    Turning numerator denominator bound (.ofExpansion expansion) := by
  have nextNumerator := keeps.next_numerator_le positive
  have nextDenominator := keeps.next_denominator_le positive
  have numeratorProduct : expansion.quotient * expansion.numerator ≤ numerator :=
    (Nat.le_add_left _ _).trans nextNumerator
  have denominatorProduct : expansion.quotient * expansion.denominator ≤ denominator :=
    (Nat.le_add_left _ _).trans nextDenominator
  have dividedProduct : expansion.quotient * expansion.divisor ≤ max numerator denominator :=
    (Nat.div_mul_le_self _ _).trans keeps.dividend_le
  constructor
  case divisor_pos => exact Int.natCast_pos.mpr positive
  case numerator_mem => exact natCast_mem_Icc_max keeps.numerator_le
  case olderNumerator_mem =>
    exact natCast_mem_Icc_max (le_max_of_le_left (keeps.olderNumerator_le positive))
  case denominator_mem => exact natCast_mem_Icc (keeps.within.1.trans short.le)
  case olderDenominator_mem => exact natCast_mem_Icc (keeps.within.2.trans short.le)
  case quotient_mul_numerator_mem =>
    rw [quotient_ofExpansion]
    exact_mod_cast natCast_mem_Icc_max (le_max_of_le_left numeratorProduct)
  case quotient_mul_denominator_mem =>
    rw [quotient_ofExpansion]
    exact_mod_cast natCast_mem_Icc denominatorProduct
  case quotient_mul_divisor_mem =>
    rw [quotient_ofExpansion]
    exact_mod_cast natCast_mem_Icc_max dividedProduct
  case nextNumerator_mem =>
    rw [nextNumerator_ofExpansion]
    exact natCast_mem_Icc_max (le_max_of_le_left nextNumerator)
  case nextDenominator_mem =>
    rw [nextDenominator_ofExpansion]
    exact natCast_mem_Icc nextDenominator
  case outcome =>
    rw [turn_eq keeps positive short numeratorSmall denominatorSmall, nextDenominator_ofExpansion]
    by_cases beyond : bound < expansion.next.denominator
    · rw [if_pos beyond]
      exact .inr ⟨rfl, Int.ofNat_lt.mpr beyond⟩
    · rw [if_neg beyond]
      exact .inl ⟨_, rfl, Int.ofNat_lt.mpr (Nat.mod_lt _ positive)⟩

/-- A quotient in lowest terms is no fraction with a smaller denominator. -/
theorem ne_of_den_lt {other : ℚ} (lowest : numerator.Coprime denominator)
    (small : other.den < denominator) : (numerator : ℚ) / denominator ≠ other := by
  rintro rfl
  have whole : (((numerator : ℤ) / (denominator : ℤ) : ℚ).den : ℤ) = denominator :=
    Rat.den_div_eq_of_coprime (Int.natCast_pos.mpr (Nat.zero_lt_of_lt small)) lowest
  push_cast at whole
  omega

/-- A number between two others that is neither of them lies strictly between. -/
theorem mem_uIoo_of_mem_uIcc {value first second : ℚ} (between : value ∈ Set.uIcc first second)
    (notFirst : value ≠ first) (notSecond : value ≠ second) : value ∈ Set.uIoo first second := by
  rcases le_total first second with le | le
  · rw [Set.uIcc_of_le le] at between
    rw [Set.uIoo_of_le le]
    exact ⟨lt_of_le_of_ne between.1 notFirst.symm, lt_of_le_of_ne between.2 notSecond⟩
  · rw [Set.uIcc_of_ge le] at between
    rw [Set.uIoo_of_ge le]
    exact ⟨lt_of_le_of_ne between.1 notSecond.symm, lt_of_le_of_ne between.2 notFirst⟩

/-- **Where an expansion stops, its candidates enclose the number expanded.** -/
theorem left_ofExpansion (stops : expansion.Stops numerator denominator bound)
    (positive : 1 ≤ bound) (short : bound < denominator) (lowest : numerator.Coprime denominator)
    (unit : |expansion.determinant| = 1) :
    Left numerator denominator bound (.ofExpansion expansion) := by
  obtain ⟨numeratorBound, denominatorBound⟩ := stops.semiconvergent_bounds positive
  have steps := semiSteps_ofExpansion stops.keeps
  have semiNumerator := semiNumerator_ofExpansion stops.keeps
  have semiDenominator := semiDenominator_ofExpansion stops.keeps
  have neighbours := stops.neighbours positive (positive.trans short.le) unit
  constructor
  case denominator_pos => exact Int.ofNat_le.mpr (stops.denominator_pos positive)
  case semiSteps_nonneg =>
    rw [steps]
    exact Int.natCast_nonneg _
  case semiSteps_mul_numerator_mem =>
    rw [steps]
    exact_mod_cast natCast_mem_Icc_max
      (le_max_of_le_left ((Nat.le_add_left _ _).trans numeratorBound))
  case semiSteps_mul_denominator_mem =>
    rw [steps]
    exact_mod_cast natCast_mem_Icc (((Nat.le_add_left _ _).trans denominatorBound).trans short.le)
  case semiNumerator_mem =>
    rw [semiNumerator]
    exact natCast_mem_Icc_max (le_max_of_le_left numeratorBound)
  case semiDenominator_mem =>
    rw [semiDenominator]
    exact ⟨Int.ofNat_le.mpr (stops.semiconvergent_pos positive), Int.ofNat_le.mpr denominatorBound⟩
  case unimodular =>
    rw [semiNumerator, semiDenominator, ← unit, Expansion.determinant, State.ofExpansion]
    congr 1
    push_cast
    ring
  case between =>
    have strict := mem_uIoo_of_mem_uIcc neighbours.around
      (ne_of_den_lt lowest (neighbours.first_den.trans_lt short))
      (ne_of_den_lt lowest (neighbours.second_den.trans_lt short))
    rw [semiNumerator, semiDenominator]
    simpa only [Expansion.convergent, Expansion.semiconvergent, Rat.mkRat_eq_div,
      State.ofExpansion, Int.cast_natCast] using strict

end Expansion

/-! ## The whole loop -/

section Loop

variable {numerator denominator bound : Nat} (short : bound < denominator)
  (numeratorSmall : numerator < wordLimit) (denominatorSmall : denominator < wordLimit)
include short numeratorSmall denominatorSmall

/-- The last turn is one of the turns. -/
theorem reached_walk {first : State} {expansion : Expansion}
    (reached : Reached bound first (.ofExpansion expansion))
    (keeps : expansion.Keeps numerator denominator bound) (incomplete : 0 < expansion.divisor) :
    Reached bound first (.ofExpansion (expansion.walk bound)) := by
  have goesOn := turn_eq keeps incomplete short numeratorSmall denominatorSmall
  -- The walk stops where the next convergent is beyond the bound: a divisor of zero, where it
  -- would stop too, is never reached.
  induction expansion using Expansion.walk.induct bound with
  | case1 state complete => exact absurd incomplete (by omega)
  | case2 state _ beyond =>
    rw [Expansion.walk, if_neg incomplete.ne', if_pos beyond]
    exact reached
  | case3 state _ inside ih =>
    rw [Expansion.walk, if_neg incomplete.ne', if_neg inside]
    rw [if_neg inside] at goesOn
    have inside := Nat.not_lt.mp inside
    have nextKeeps := keeps.next incomplete inside
    have nextIncomplete := keeps.next_divisor_pos incomplete inside short
    exact ih (.again reached goesOn) nextKeeps nextIncomplete
      (turn_eq nextKeeps nextIncomplete short numeratorSmall denominatorSmall)

variable (lowest : numerator.Coprime denominator) (positive : 1 ≤ bound)
include lowest positive

/-- **Every turn begins with the words of an expansion.** -/
theorem Reached.exists_expansion {state : State}
    (reached : Reached bound (.entry numerator denominator) state) :
    ∃ expansion, state = .ofExpansion expansion ∧
      expansion.Keeps numerator denominator bound ∧ 0 < expansion.divisor := by
  induction reached with
  | entered =>
    have expanded : 0 < denominator := by omega
    exact ⟨.start numerator denominator, rfl, Expansion.keeps_start lowest positive, expanded⟩
  | again _ goesOn ih =>
    obtain ⟨expansion, rfl, keeps, incomplete⟩ := ih
    rw [turn_eq keeps incomplete short numeratorSmall denominatorSmall] at goesOn
    split at goesOn
    · cases goesOn
    · rename_i inside
      cases goesOn
      have inside := Nat.not_lt.mp inside
      exact ⟨expansion.next, rfl, keeps.next incomplete inside,
        keeps.next_divisor_pos incomplete inside short⟩

/-- **Every turn of the loop is safe, and the loop ends with two candidates.** -/
theorem loop_entry :
    (∀ state, Reached bound (.entry numerator denominator) state →
        Turning numerator denominator bound state) ∧
      ∃ last, loop bound (.entry numerator denominator) = .ok last ∧
        Reached bound (.entry numerator denominator) last ∧
        turn bound last = .ok (.leave last) ∧ Left numerator denominator bound last := by
  have expanded : 0 < denominator := by omega
  have keeps := Expansion.keeps_start lowest positive
  have stops := Expansion.walk_stops keeps short
  have unit := Expansion.abs_determinant_walk bound (.start numerator denominator)
  rw [Expansion.determinant_start, abs_one] at unit
  constructor
  · intro state reached
    obtain ⟨expansion, rfl, keeps, incomplete⟩ := reached.exists_expansion short numeratorSmall
      denominatorSmall lowest positive
    exact turning_ofExpansion keeps incomplete short numeratorSmall denominatorSmall
  · refine ⟨_, loop_ofExpansion keeps expanded numeratorSmall denominatorSmall,
      reached_walk short numeratorSmall denominatorSmall .entered keeps expanded,
      ?_, left_ofExpansion stops positive short lowest unit⟩
    rw [turn_eq stops.keeps stops.divisor_pos short numeratorSmall denominatorSmall,
      if_pos stops.beyond]

end Loop

/-- The target of a search has words for its parts. -/
theorem target_small {value : Binary64} {target : ℚ} (known : roundedTarget? value = some target) :
    target.num.natAbs < wordLimit ∧ target.den ≤ scale := by
  unfold roundedTarget? at known
  dsimp only at known
  split at known
  · cases known
  · rename_i inside
    cases known
    obtain ⟨finite, below⟩ := not_or.mp inside
    have finite : ((value * .ofInt Fraction.scale).round).isFinite = true := by
      simpa using finite
    exact ⟨(natAbs_num_mkRat_le _ _).trans_lt (natAbs_truncate_lt finite below),
      den_mkRat_le _ (Nat.succ_pos _)⟩

/-- **The loop of the search is safe and ends.**  It is entered when the denominator of the
target is beyond the bound.  In every turn the divisor is positive and smaller than in the turn
before, and all that is computed is bounded by the parts of the target.  The loop is left because
the next convergent is beyond the bound, and then the candidates enclose the target. -/
theorem loop_safe {value : Binary64} {bound : ℤ} {target : ℚ}
    (known : roundedTarget? value = some target) (positive : 1 ≤ bound)
    (short : bound < target.den) :
    (|target.num| < wordLimit ∧ (target.den : ℤ) ≤ scale) ∧
      (∀ state, Reached bound (.entry |target.num| target.den) state →
        Turning |target.num| target.den bound state) ∧
      ∃ last, loop bound (.entry |target.num| target.den) = .ok last ∧
        Reached bound (.entry |target.num| target.den) last ∧
        turn bound last = .ok (.leave last) ∧ Left |target.num| target.den bound last := by
  obtain ⟨size, rfl⟩ := Int.eq_ofNat_of_zero_le (show 0 ≤ bound by omega)
  obtain ⟨numeratorSmall, denominatorSmall⟩ := target_small known
  rw [Int.abs_eq_natAbs]
  refine ⟨⟨Int.ofNat_lt.mpr numeratorSmall, Int.ofNat_le.mpr denominatorSmall⟩, ?_⟩
  exact loop_entry (Int.ofNat_lt.mp short) numeratorSmall (denominatorSmall.trans_lt scale_lt)
    target.reduced (Int.ofNat_le.mp positive)

/-- The search for a third with denominators up to ten. -/
theorem loop_safe_third :
    roundedTarget? (1 / 3) = some (33333333 / 100000000) ∧
      ∃ last, loop 10 (.entry 33333333 100000000) = .ok last ∧
        turn 10 last = .ok (.leave last) ∧ Left 33333333 100000000 10 last := by
  have known : roundedTarget? (1 / 3) = some (33333333 / 100000000) ∧
      (33333333 / 100000000 : ℚ).num = 33333333 ∧ (33333333 / 100000000 : ℚ).den = 100000000 := by
    decide +kernel
  obtain ⟨isTarget, numerator, denominator⟩ := known
  have short : (10 : ℤ) < (33333333 / 100000000 : ℚ).den := by
    rw [denominator]
    decide
  obtain ⟨-, -, last, ends, -, leaves, left⟩ := loop_safe isTarget (by decide) short
  rw [numerator, denominator] at ends left
  exact ⟨isTarget, last, ends, leaves, left⟩

end Words

end Quadratics.Fraction
