import Mathlib.Algebra.Order.Group.Pointwise.Interval
import Quadratics.Proofs.Binary64.Reflections
import Quadratics.Proofs.Fraction.Words

/-!
# Neighbouring fractions around a target

Two fractions whose cross products differ by one have no other fraction between them,
unless its denominator is at least the sum of theirs (`add_le_den_of_between`).  So two
such fractions around a target, with denominators within a bound whose sum exceeds the
bound, are the last fractions within the bound on either side of the target
(`Neighbours`).

The candidates of the search are of this kind (`Stops.neighbours`): the determinant of two
successive convergents is one or minus one at every step of the expansion
(`abs_determinant_walk`), and the semiconvergent goes as far as the bound allows.  Whichever
candidate is taken is therefore the best approximation on its side (`OneSided`).
-/

namespace Quadratics.Fraction

set_option autoImplicit false

/-! ## Fractions apart -/

/-- Different fractions are apart by one part of the product of their denominators. -/
theorem one_div_le_abs_sub {first second : ℤ} {size size' : ℕ} (positive : 0 < size)
    (positive' : 0 < size') (different : (first : ℚ) / size ≠ second / size') :
    1 / ((size : ℚ) * size') ≤ |(first : ℚ) / size - second / size'| := by
  have sizePos : (0 : ℚ) < size := Nat.cast_pos.mpr positive
  have sizePos' : (0 : ℚ) < size' := Nat.cast_pos.mpr positive'
  have nonzero : first * size' - size * second ≠ 0 := by
    intro zero
    refine different ((div_eq_div_iff sizePos.ne' sizePos'.ne').mpr ?_)
    exact_mod_cast (sub_eq_zero.mp zero).trans (mul_comm _ _)
  have one : (1 : ℚ) ≤ |(first : ℚ) * size' - size * second| := by
    exact_mod_cast Int.one_le_abs nonzero
  rw [div_sub_div _ _ sizePos.ne' sizePos'.ne', abs_div, abs_of_pos (mul_pos sizePos sizePos')]
  exact div_le_div_of_nonneg_right one (mul_pos sizePos sizePos').le

/-- The cross products of two fractions differ by one. -/
def Unimodular (first second : ℤ) (size size' : ℕ) : Prop :=
  |first * size' - second * size| = 1

section Unimodular

variable {first second : ℤ} {size size' : ℕ} (positive : 0 < size) (positive' : 0 < size')
  (unimodular : Unimodular first second size size')
include positive positive' unimodular

theorem abs_sub_of_unimodular :
    |(first : ℚ) / size - second / size'| = 1 / ((size : ℚ) * size') := by
  have sizePos : (0 : ℚ) < size := Nat.cast_pos.mpr positive
  have sizePos' : (0 : ℚ) < size' := Nat.cast_pos.mpr positive'
  have one : |(first : ℚ) * size' - size * second| = 1 := by
    rw [mul_comm (size : ℚ)]
    exact_mod_cast unimodular
  rw [div_sub_div _ _ sizePos.ne' sizePos'.ne', abs_div, abs_of_pos (mul_pos sizePos sizePos'), one]

/-- **Between fractions whose cross products differ by one there are only fractions with
larger denominators.** -/
theorem add_le_den_of_between {other : ℚ}
    (between : other ∈ Set.uIoo ((first : ℚ) / size) (second / size')) :
    size + size' ≤ other.den := by
  have sizePos : (0 : ℚ) < size := Nat.cast_pos.mpr positive
  have sizePos' : (0 : ℚ) < size' := Nat.cast_pos.mpr positive'
  have denPos : (0 : ℚ) < other.den := Nat.cast_pos.mpr other.den_pos
  have asQuotient : (other.num : ℚ) / other.den = other := Rat.num_div_den other
  have fromFirst := @one_div_le_abs_sub other.num first _ _ other.den_pos positive
  have fromSecond := @one_div_le_abs_sub other.num second _ _ other.den_pos positive'
  have whole := abs_sub_of_unimodular positive positive' unimodular
  rw [asQuotient] at fromFirst fromSecond
  generalize (first : ℚ) / size = lower at *
  generalize (second : ℚ) / size' = upper at *
  have parts : |other - lower| + |other - upper| = |lower - upper| ∧
      other ≠ lower ∧ other ≠ upper := by
    rcases le_total lower upper with le | le
    · rw [Set.uIoo_of_le le] at between
      obtain ⟨above, below⟩ := between
      rw [abs_of_pos (sub_pos.mpr above), abs_of_neg (sub_neg.mpr below),
        abs_of_nonpos (sub_nonpos.mpr le)]
      exact ⟨by ring, above.ne', below.ne⟩
    · rw [Set.uIoo_of_ge le] at between
      obtain ⟨above, below⟩ := between
      rw [abs_of_pos (sub_pos.mpr above), abs_of_neg (sub_neg.mpr below),
        abs_of_nonneg (sub_nonneg.mpr le)]
      exact ⟨by ring, below.ne, above.ne'⟩
  obtain ⟨sum, notLower, notUpper⟩ := parts
  have apart := add_le_add (fromFirst notLower) (fromSecond notUpper)
  rw [sum, whole, div_add_div _ _ (by positivity) (by positivity),
    div_le_div_iff₀ (by positivity) (by positivity)] at apart
  -- Multiplied out, all three denominators occur on both sides.
  have scaled : (size + size' : ℚ) * (other.den * size * size') ≤
      other.den * (other.den * size * size') := by linarith
  exact_mod_cast le_of_mul_le_mul_right scaled (by positivity)

end Unimodular

/-! ## Neighbours -/

/-- Two fractions within a bound, one on either side of a target, with no fraction within
the bound between them. -/
structure Neighbours (bound : ℕ) (target first second : ℚ) : Prop where
  around : target ∈ Set.uIcc first second
  first_den : first.den ≤ bound
  second_den : second.den ≤ bound
  empty : ∀ other : ℚ, other.den ≤ bound → other ∉ Set.uIoo first second
  near : |first - second| ≤ 1 / bound

theorem Neighbours.symm {bound : ℕ} {target first second : ℚ}
    (neighbours : Neighbours bound target first second) : Neighbours bound target second first where
  around := Set.uIcc_comm first second ▸ neighbours.around
  first_den := neighbours.second_den
  second_den := neighbours.first_den
  empty := Set.uIoo_comm first second ▸ neighbours.empty
  near := abs_sub_comm first second ▸ neighbours.near

/-- Fractions whose cross products differ by one are neighbours, if the bound is below the
sum of their denominators. -/
theorem neighbours_of_unimodular {first second : ℤ} {size size' bound : ℕ} {target : ℚ}
    (positive : 0 < size) (positive' : 0 < size') (within : size ≤ bound) (within' : size' ≤ bound)
    (beyond : bound < size + size') (unimodular : Unimodular first second size size')
    (around : target ∈ Set.uIcc (mkRat first size) (mkRat second size')) :
    Neighbours bound target (mkRat first size) (mkRat second size') where
  around := around
  first_den := (Words.den_mkRat_le first positive).trans within
  second_den := (Words.den_mkRat_le second positive').trans within'
  empty other small between := by
    rw [Rat.mkRat_eq_div, Rat.mkRat_eq_div] at between
    have large := add_le_den_of_between positive positive' unimodular between
    omega
  near := by
    have boundPos : (0 : ℚ) < bound := Nat.cast_pos.mpr (positive.trans_le within)
    have product : bound ≤ size * size' := by
      obtain ⟨rest, rfl⟩ := Nat.exists_eq_add_of_lt positive
      obtain ⟨rest', rfl⟩ := Nat.exists_eq_add_of_lt positive'
      have expanded : (0 + rest + 1) * (0 + rest' + 1) = rest * rest' + rest + rest' + 1 := by ring
      omega
    rw [Rat.mkRat_eq_div, Rat.mkRat_eq_div, abs_sub_of_unimodular positive positive' unimodular]
    exact one_div_le_one_div_of_le boundPos (by exact_mod_cast product)

/-! ## The best approximation on one side -/

/-- A fraction within a bound is as near to a target as such fractions get on its side. -/
structure OneSided (bound : ℕ) (target found : ℚ) : Prop where
  /-- The denominator keeps within the bound. -/
  within : found.den ≤ bound
  /-- A target that keeps within the bound is found itself. -/
  exact : target.den ≤ bound → found = target
  /-- No fraction that keeps within the bound lies strictly between. -/
  empty : ∀ other : ℚ, other.den ≤ bound → other ∉ Set.uIoo found target
  /-- The target is not far. -/
  near : |found - target| ≤ 1 / bound

/-- The target is its own best approximation. -/
theorem oneSided_self {bound : ℕ} {target : ℚ} (inside : target.den ≤ bound) :
    OneSided bound target target where
  within := inside
  exact _ := rfl
  empty other _ := by
    rw [Set.uIoo_self]
    exact Set.notMem_empty other
  near := by
    rw [sub_self, abs_zero]
    positivity

/-- **Of two neighbours around a target either is the best approximation on its side.** -/
theorem Neighbours.oneSided {bound : ℕ} {target first second : ℚ}
    (neighbours : Neighbours bound target first second) (outside : ¬ target.den ≤ bound) :
    OneSided bound target first where
  within := neighbours.first_den
  exact inside := absurd inside outside
  empty other small between := by
    refine neighbours.empty other small ?_
    obtain ⟨above, below⟩ := between
    obtain ⟨lower, upper⟩ := neighbours.around
    exact ⟨(le_inf inf_le_left lower).trans_lt above, below.trans_le (sup_le le_sup_left upper)⟩
  near := by
    rw [abs_sub_comm]
    refine (Set.abs_sub_left_of_mem_uIcc neighbours.around).trans ?_
    rw [abs_sub_comm]
    exact neighbours.near

theorem OneSided.neg {bound : ℕ} {target found : ℚ} (oneSided : OneSided bound target found) :
    OneSided bound (-target) (-found) where
  within := oneSided.within
  exact inside := congrArg Neg.neg (oneSided.exact inside)
  empty other small between := by
    refine oneSided.empty (-other) small ?_
    obtain ⟨above, below⟩ := between
    rw [min_neg_neg] at above
    rw [max_neg_neg] at below
    exact ⟨lt_neg_of_lt_neg below, neg_lt_of_neg_lt above⟩
  near := by
    rw [neg_sub_neg, abs_sub_comm]
    exact oneSided.near

/-! ## The candidates of the search -/

namespace Expansion

variable {numerator denominator bound : Nat} {state : Expansion}

/-- How the cross products of the last two convergents differ. -/
def determinant (state : Expansion) : ℤ :=
  state.numerator * state.olderDenominator - state.olderNumerator * state.denominator

theorem determinant_start (numerator denominator : Nat) :
    (start numerator denominator).determinant = 1 := by
  simp [determinant, start]

/-- A step changes the sign of the determinant. -/
theorem determinant_next (state : Expansion) : state.next.determinant = -state.determinant := by
  simp only [determinant, next]
  push_cast
  ring

/-- **The determinant keeps its magnitude throughout an expansion.** -/
theorem abs_determinant_walk (bound : Nat) (state : Expansion) :
    |(state.walk bound).determinant| = |state.determinant| := by
  induction state using walk.induct bound with
  | case1 state complete => rw [walk, if_pos complete]
  | case2 state incomplete beyond => rw [walk, if_neg incomplete, if_pos beyond]
  | case3 state incomplete inside ih =>
    rw [walk, if_neg incomplete, if_neg inside, ih, determinant_next, abs_neg]

/-- How far the number expanded is from the last convergent. -/
theorem Keeps.sub_convergent (keeps : Keeps numerator denominator bound state) :
    (numerator : ℤ) * state.denominator - state.numerator * denominator =
      -(state.divisor * state.determinant) := by
  rw [← keeps.numerators, ← keeps.denominators, determinant]
  push_cast
  ring

/-- How far it is from the older convergent moved on by some steps. -/
theorem Keeps.sub_semiconvergent (keeps : Keeps numerator denominator bound state) (steps : Nat) :
    (numerator : ℤ) * (state.olderDenominator + steps * state.denominator : Nat) -
        (state.olderNumerator + steps * state.numerator : Nat) * denominator =
      (state.dividend - steps * state.divisor) * state.determinant := by
  rw [← keeps.numerators, ← keeps.denominators, determinant]
  push_cast
  ring

namespace Stops

variable (stops : Stops numerator denominator bound state) (positive : 1 ≤ bound)
include stops positive

theorem semiSteps_mul_lt : state.semiSteps bound * state.divisor < state.dividend := by
  have fewer := Nat.mul_lt_mul_of_pos_right (stops.semiSteps_lt positive) stops.divisor_pos
  exact fewer.trans_le (Nat.div_mul_le_self _ _)

/-- The semiconvergent goes as far as the bound allows. -/
theorem bound_lt : bound < state.denominator +
    (state.olderDenominator + state.semiSteps bound * state.denominator) := by
  have older := stops.keeps.within.2
  have divided := Nat.div_add_mod' (bound - state.olderDenominator) state.denominator
  have remainder := Nat.mod_lt (bound - state.olderDenominator) (stops.denominator_pos positive)
  simp only [semiSteps]
  omega

/-- **The number expanded lies between the two candidates.** -/
theorem around (expanded : 0 < denominator) (unit : |state.determinant| = 1) :
    (numerator : ℚ) / denominator ∈ Set.uIcc state.convergent (state.semiconvergent bound) := by
  have expandedPos : (0 : ℚ) < denominator := Nat.cast_pos.mpr expanded
  have lastPos : (0 : ℚ) < state.denominator := Nat.cast_pos.mpr (stops.denominator_pos positive)
  have semiPos := Nat.cast_pos (α := ℚ).mpr (stops.semiconvergent_pos positive)
  have toLast := stops.keeps.sub_convergent
  have toSemi := stops.keeps.sub_semiconvergent (state.semiSteps bound)
  have room : (state.semiSteps bound : ℤ) * state.divisor < state.dividend := by
    exact_mod_cast stops.semiSteps_mul_lt positive
  simp only [convergent, semiconvergent, Rat.mkRat_eq_div, Int.cast_natCast]
  rcases eq_or_eq_neg_of_abs_eq unit with even | odd
  · rw [even] at toLast toSemi
    have below : (numerator : ℤ) * state.denominator ≤ state.numerator * denominator := by omega
    refine Set.Icc_subset_uIcc' ⟨?_, ?_⟩
    · have above := sub_nonneg.mp (le_trans (by omega) toSemi.ge)
      rw [div_le_div_iff₀ semiPos expandedPos]
      exact_mod_cast above
    · rw [div_le_div_iff₀ expandedPos lastPos]
      exact_mod_cast below
  · rw [odd] at toLast toSemi
    have above : (state.numerator : ℤ) * denominator ≤ numerator * state.denominator := by omega
    refine Set.Icc_subset_uIcc ⟨?_, ?_⟩
    · rw [div_le_div_iff₀ lastPos expandedPos]
      exact_mod_cast above
    · have below := sub_nonpos.mp (toSemi.le.trans (by omega))
      rw [div_le_div_iff₀ expandedPos semiPos]
      exact_mod_cast below

/-- **The two candidates are neighbours around the number expanded.** -/
theorem neighbours (expanded : 0 < denominator) (unit : |state.determinant| = 1) :
    Neighbours bound ((numerator : ℚ) / denominator) state.convergent
      (state.semiconvergent bound) := by
  refine neighbours_of_unimodular (stops.denominator_pos positive)
    (stops.semiconvergent_pos positive) stops.keeps.within.1
    (stops.semiconvergent_bounds positive).2 (stops.bound_lt positive) ?_
    (stops.around positive expanded unit)
  rw [Unimodular, ← unit, determinant]
  congr 1
  push_cast
  ring

end Stops

end Expansion

/-- **The candidates of a search are neighbours around its target**, if the target is not found
itself. -/
theorem neighbours_walk {bound : ℕ} {target : ℚ} (positive : 1 ≤ bound) (unsigned : 0 ≤ target)
    (outside : ¬ target.den ≤ bound) :
    let expansion := (Expansion.start target.num.natAbs target.den).walk bound
    Neighbours bound target expansion.convergent (expansion.semiconvergent bound) := by
  intro expansion
  have keeps := Expansion.keeps_start target.reduced positive
  have stops := Expansion.walk_stops keeps (Nat.not_le.mp outside)
  have unit := Expansion.abs_determinant_walk bound (.start target.num.natAbs target.den)
  rw [Expansion.determinant_start, abs_one] at unit
  have neighbours := stops.neighbours positive target.den_pos unit
  have asQuotient : (target.num.natAbs : ℚ) / target.den = target := by
    rw [Binary64.natAbs_num_div_den, abs_of_nonneg unsigned]
  rwa [asQuotient] at neighbours

/-- **What is found within a bound is the best approximation on its side.** -/
theorem oneSided_withinBound {bound : ℕ} {target : ℚ} (positive : 1 ≤ bound)
    (unsigned : 0 ≤ target) : OneSided bound target (withinBound bound target) := by
  by_cases inside : target.den ≤ bound
  · rw [withinBound, if_pos inside]
    exact oneSided_self inside
  · have neighbours := neighbours_walk positive unsigned inside
    rcases Words.withinBound_eq_or_eq inside with taken | taken <;> rw [taken]
    · exact neighbours.oneSided inside
    · exact neighbours.symm.oneSided inside

end Quadratics.Fraction
