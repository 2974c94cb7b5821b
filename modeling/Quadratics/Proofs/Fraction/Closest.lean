import Quadratics.Proofs.Binary64.Integers
import Quadratics.Proofs.Fraction.Neighbours

/-!
# The fraction near a number

The search looks for a number that was first taken to so many places, and that is a
fraction: the integer nearest to the scaled number over the scale
(`roundedTarget?_eq_some`).  What is found for it is the best approximation on its side
(`oneSided_of_closest`).

The search favours no sign.  Reflected numbers have reflected targets
(`roundedTarget?_reflects`), the sign is put back after the search, and so the fractions
found for them are reflected as well (`closest?_reflects`).
-/

namespace Quadratics.Fraction

set_option autoImplicit false

variable {value value' : Binary64} {target : ℚ}

/-! ## The target -/

/-- The number as scaled for its places. -/
def scaled (value : Binary64) : Binary64 :=
  value * .ofInt scale

theorem roundedTarget?_eq (value : Binary64) : roundedTarget? value =
    if !(scaled value).round.isFinite ∨ scaledLimit ≤ (scaled value).round.abs then none
    else some (mkRat (scaled value).round.truncate scale) := rfl

/-- **The target is the nearest fraction with the scale as denominator.** -/
theorem roundedTarget?_eq_some (known : roundedTarget? value = some target) :
    (scaled value).isFinite = true ∧
      target = Binary64.roundedAway (scaled value).toRat / 10 ^ 8 := by
  rw [roundedTarget?_eq] at known
  split at known
  · cases known
  · rename_i inside
    have roundFinite : (scaled value).round.isFinite = true := by
      simpa using (not_or.mp inside).1
    have finite := Binary64.isFinite_of_round roundFinite
    refine ⟨finite, ?_⟩
    rw [← Option.some.inj known, (Binary64.IsInteger.round finite).truncate_eq, Rat.mkRat_eq_div]
    norm_num [scale]

/-! ## Reflected numbers -/

/-- **Reflected numbers have reflected targets.** -/
theorem roundedTarget?_reflects (reflects : Binary64.Reflects value value') :
    roundedTarget? value' = (roundedTarget? value).map Neg.neg := by
  have rounds : Binary64.Reflects (scaled value).round (scaled value').round :=
    (reflects.mul_right _).round
  rw [roundedTarget?_eq, roundedTarget?_eq, rounds.isFinite_eq]
  cases finite : (scaled value).round.isFinite
  · rfl
  · have opposite := rounds.opposite_of_isFinite finite
    rw [opposite.abs_eq, opposite.truncate_eq]
    split
    · rfl
    · rw [Option.map_some, Rat.mkRat_eq_div, Rat.mkRat_eq_div, Int.cast_neg, neg_div]

/-- The search with the sign left aside. -/
def withinBoundSigned (bound : ℕ) (target : ℚ) : ℚ :=
  if target.num < 0 then -withinBound bound (-target) else withinBound bound target

theorem closest?_eq (value : Binary64) {bound : ℤ} (allowed : 1 ≤ bound) :
    closest? value bound = .ok ((roundedTarget? value).map (withinBoundSigned bound.toNat)) := by
  rw [closest?, if_neg (not_lt.mpr allowed)]
  rfl

theorem withinBound_zero {bound : ℕ} (positive : 1 ≤ bound) : withinBound bound 0 = 0 := by
  rw [withinBound, if_pos (by simpa using positive)]

theorem withinBoundSigned_neg {bound : ℕ} (positive : 1 ≤ bound) (target : ℚ) :
    withinBoundSigned bound (-target) = -withinBoundSigned bound target := by
  simp only [withinBoundSigned, Rat.num_neg, neg_lt_zero, neg_neg]
  rcases lt_trichotomy target 0 with below | rfl | above
  · rw [if_neg below.le.not_gt, if_pos below, neg_neg]
  · rw [if_neg (lt_irrefl 0), if_neg (lt_irrefl 0), neg_zero, withinBound_zero positive, neg_zero]
  · rw [if_pos above, if_neg above.le.not_gt]

/-- **The fractions found for reflected numbers are reflected.** -/
theorem closest?_reflects (reflects : Binary64.Reflects value value') {bound : ℤ}
    (allowed : 1 ≤ bound) :
    ∃ found : Option ℚ, closest? value bound = .ok found ∧
      closest? value' bound = .ok (found.map Neg.neg) := by
  have positive : 1 ≤ bound.toNat := by omega
  refine ⟨_, closest?_eq value allowed, ?_⟩
  rw [closest?_eq value' allowed, roundedTarget?_reflects reflects, Option.map_map, Option.map_map]
  congr 2
  funext target
  exact withinBoundSigned_neg positive target

/-! ## What is found -/

theorem oneSided_withinBoundSigned {bound : ℕ} (positive : 1 ≤ bound) (target : ℚ) :
    OneSided bound target (withinBoundSigned bound target) := by
  rw [withinBoundSigned]
  split
  · rename_i below
    have unsigned : 0 ≤ -target := neg_nonneg.mpr (Rat.num_neg.mp below).le
    simpa using (oneSided_withinBound positive unsigned).neg
  · rename_i above
    exact oneSided_withinBound positive (Rat.num_nonneg.mp (not_lt.mp above))

/-- **What is found for a number is the best approximation on its side.**  It is a fraction
in lowest terms whose denominator keeps within the bound, and the target itself if that
does.  There is no such fraction between it and the target, it is near the target, and the
fraction found for the opposite number is its opposite. -/
theorem oneSided_of_closest {bound : ℤ} {found : ℚ}
    (isFound : closest? value bound = .ok (some found)) :
    (value * .ofInt scale).isFinite = true ∧ found.num.natAbs.Coprime found.den ∧
      1 ≤ found.den ∧ (found.den : ℤ) ≤ bound ∧
      OneSided bound.toNat (Binary64.roundedAway (value * .ofInt scale).toRat / 10 ^ 8) found ∧
      closest? (-value) bound = .ok (some (-found)) := by
  have allowed : 1 ≤ bound := by
    by_contra few
    rw [closest?, if_pos (not_le.mp few)] at isFound
    cases isFound
  rw [closest?_eq value allowed] at isFound
  obtain ⟨target, known, rfl⟩ := Option.map_eq_some_iff.mp (Except.ok.inj isFound)
  obtain ⟨finite, exact⟩ := roundedTarget?_eq_some known
  have positive : 1 ≤ bound.toNat := by omega
  have oneSided := oneSided_withinBoundSigned positive target
  obtain ⟨_, same, reflected⟩ := closest?_reflects (Binary64.reflects_neg value) allowed
  rw [closest?_eq value allowed, known] at same
  rw [← Except.ok.inj same] at reflected
  refine ⟨finite, Rat.reduced _, Rat.den_pos _, ?_, exact ▸ oneSided, reflected⟩
  have within := oneSided.within
  omega

/-- A third is found as such: at eight places it is `33333333 / 10 ^ 8`. -/
theorem oneSided_of_closest_third :
    closest? (1 / 3) 10 = .ok (some (1 / 3)) ∧
      OneSided 10 (Binary64.roundedAway ((1 / 3 : Binary64) * .ofInt scale).toRat / 10 ^ 8)
        (1 / 3) := by
  have isFound : closest? (1 / 3) 10 = .ok (some (1 / 3)) := by decide +kernel
  exact ⟨isFound, (oneSided_of_closest isFound).2.2.2.2.1⟩

end Quadratics.Fraction
