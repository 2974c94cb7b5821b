import Quadratics.Proofs.Fraction.Closest

/-!
# How near the fraction found is

The search compares the distances of its two candidates in binary64 arithmetic.  The target
and the candidates are rounded twice each, as numerators and as quotients, and their
difference is rounded once more, so a distance is off by one part in `2 ^ 50` of a number
larger than the target by one (`distance_error`).

No fraction within the bound is nearer than both candidates (`Neighbours.nearest`).  What is
found is therefore the nearest fraction but for twice that error.  It is the nearest one
exactly where the error is smaller than what different distances differ by, which is a
fraction itself (`nearest_of_closest`).

Elsewhere the farther candidate may be taken: `closest_farther` is a number whose two
candidates are equally far in binary64 arithmetic, though not in fact.
-/

namespace Quadratics.Fraction

set_option autoImplicit false

open Binary64 (halfUnit rounded IsInteger)

variable {bound : ℕ} {fraction target found first second slack : ℚ}

/-! ## Fractions as binary64 numbers -/

/-- A fraction with the parts of a target: a numerator that is a word, and a denominator that
is no larger than the scale. -/
structure Small (fraction : ℚ) : Prop where
  num : fraction.num.natAbs < Words.wordLimit
  den : fraction.den ≤ scale

theorem abs_eq_div (fraction : ℚ) : |fraction| = |(fraction.num : ℚ)| / fraction.den := by
  rw [← Nat.abs_cast, ← abs_div, Rat.num_div_den]

namespace Small

theorem abs_num_le (small : Small fraction) : |(fraction.num : ℚ)| ≤ 2 ^ 63 := by
  rw [← Int.cast_abs, Int.abs_eq_natAbs, Int.cast_natCast]
  exact_mod_cast small.num.le.trans_eq (Nat.one_shiftLeft 63)

theorem den_le (small : Small fraction) : (fraction.den : ℚ) ≤ 2 ^ 53 := by
  exact_mod_cast small.den.trans (by decide : scale ≤ 2 ^ 53)

theorem abs_le (small : Small fraction) : |fraction| ≤ 2 ^ 63 := by
  rw [abs_eq_div]
  have one : (1 : ℚ) ≤ fraction.den := Nat.one_le_cast.mpr fraction.den_pos
  exact (div_le_self (abs_nonneg _) one).trans small.abs_num_le

/-- A fraction that is not zero is far from the least positive number. -/
theorem le_half_abs (small : Small fraction) (nonzero : fraction ≠ 0) :
    1 / 2 ^ 1022 ≤ |fraction| / 2 := by
  have one : (1 : ℚ) ≤ |(fraction.num : ℚ)| := by
    exact_mod_cast Int.one_le_abs (Rat.num_ne_zero.mpr nonzero)
  have denPos : (0 : ℚ) < fraction.den := Nat.cast_pos.mpr fraction.den_pos
  calc (1 : ℚ) / 2 ^ 1022 ≤ 1 / 2 ^ (53 + 1) :=
        one_div_le_one_div_of_le (by positivity) (pow_le_pow_right₀ one_le_two (by decide))
    _ = 1 / 2 ^ 53 / 2 := by rw [pow_succ, div_div]
    _ ≤ |fraction| / 2 := by
        rw [abs_eq_div]
        refine div_le_div_of_nonneg_right ?_ two_pos.le
        exact div_le_div₀ (abs_nonneg _) one denPos small.den_le

/-- The quotient of the rounded numerator is off by one part in `2 ^ 53` at most. -/
theorem abs_quotient_sub_le (small : Small fraction) :
    (Binary64.ofInt fraction.num).isFinite = true ∧
      |(Binary64.ofInt fraction.num).toRat / fraction.den - fraction| ≤ |fraction| / 2 ^ 53 := by
  have denPos : (0 : ℚ) < fraction.den := Nat.cast_pos.mpr fraction.den_pos
  have finite : (Binary64.ofInt fraction.num).isFinite = true := by
    rw [Binary64.ofInt_eq_rounded, Binary64.isFinite_rounded]
    refine small.abs_num_le.trans_lt ((by norm_num : (2 : ℚ) ^ 63 < 2 ^ 64).trans_le ?_)
    exact Binary64.two_pow_le_overflowBound (by decide)
  have error := div_le_div_of_nonneg_right (Binary64.abs_toRat_ofInt_sub_le finite) denPos.le
  rw [← abs_of_pos denPos, ← abs_div, sub_div, abs_of_pos denPos, Rat.num_div_den,
    div_right_comm, ← abs_eq_div] at error
  exact ⟨finite, error⟩

end Small

/-- **A fraction is changed by three parts in `2 ^ 53` at most**, one for its numerator and two
for the quotient. -/
theorem toBinary64_near (small : Small fraction) : (toBinary64 fraction).isFinite = true ∧
      |(toBinary64 fraction).toRat - fraction| ≤ 3 * (|fraction| / 2 ^ 53) := by
  obtain ⟨numFinite, numError⟩ := small.abs_quotient_sub_le
  have den : IsInteger (.ofInt fraction.den) fraction.den := .ofInt (by
    rw [Nat.abs_cast]
    exact_mod_cast small.den_le)
  have alike := Binary64.div_alike numFinite den.finite
    (den.not_vanishes (Int.natCast_ne_zero.mpr fraction.den_nz))
  rw [den.exact, Int.cast_natCast] at alike
  generalize (Binary64.ofInt fraction.num).toRat / fraction.den = quotient at *
  obtain ⟨lower, upper⟩ := abs_le.mp ((abs_abs_sub_abs_le quotient fraction).trans numError)
  have part : |fraction| / 2 ^ 53 ≤ |fraction| / 2 :=
    div_le_div_of_nonneg_left (abs_nonneg _) two_pos (by norm_num)
  have normal : quotient = 0 ∨ 1 / 2 ^ 1022 ≤ |quotient| := by
    rcases eq_or_ne fraction 0 with rfl | nonzero
    · exact .inl (by simpa using numError)
    · refine .inr ((small.le_half_abs nonzero).trans ?_)
      linarith
  have finite : (rounded quotient).isFinite = true := by
    rw [Binary64.isFinite_rounded]
    refine lt_of_lt_of_le ?_ (Binary64.two_pow_le_overflowBound (by decide : 65 ≤ 1023))
    have bound := small.abs_le
    norm_num at bound ⊢
    linarith
  refine ⟨alike.isFinite_eq.trans finite, ?_⟩
  have error := abs_sub_le (rounded quotient).toRat quotient fraction
  have last := Binary64.abs_toRat_rounded_sub_le_part finite normal
  have doubled : |quotient| / 2 ^ 53 ≤ 2 * (|fraction| / 2 ^ 53) := by
    rw [← mul_div_assoc]
    exact div_le_div_of_nonneg_right (by linarith) (by positivity)
  rw [toBinary64, alike.toRat_eq]
  linarith

/-! ## Distances in binary64 arithmetic -/

/-- By how much a distance from a target may be off. -/
def distanceError (target : ℚ) : ℚ :=
  (|target| + 1) / 2 ^ 50

theorem distanceError_nonneg (target : ℚ) : 0 ≤ distanceError target := by
  rw [distanceError]
  positivity

/-- **A distance of one at most is computed with a small error.** -/
theorem distance_error (small : Small fraction) (targetSmall : Small target)
    (near : |fraction - target| ≤ 1) : (distance target fraction).isFinite = true ∧
      |(distance target fraction).toRat - (|fraction - target|)| ≤ distanceError target := by
  obtain ⟨finite, error⟩ := toBinary64_near small
  obtain ⟨targetFinite, targetError⟩ := toBinary64_near targetSmall
  have alike := Binary64.sub_alike finite targetFinite
  have size : |fraction| ≤ |target| + 1 := by
    linarith [abs_sub_abs_le_abs_sub fraction target]
  have moved : |(toBinary64 fraction).toRat - (toBinary64 target).toRat - (fraction - target)| ≤
      3 * ((2 * |target| + 1) / 2 ^ 53) := by
    have parts := abs_sub ((toBinary64 fraction).toRat - fraction)
      ((toBinary64 target).toRat - target)
    rw [sub_sub_sub_comm]
    linarith
  generalize (toBinary64 fraction).toRat - (toBinary64 target).toRat = difference at *
  have targetBound := targetSmall.abs_le
  have differenceBound : |difference| ≤ 1 + 3 * ((2 * |target| + 1) / 2 ^ 53) := by
    linarith [abs_sub_abs_le_abs_sub difference (fraction - target)]
  have differenceFinite : (toBinary64 fraction - toBinary64 target).isFinite = true := by
    rw [alike.isFinite_iff]
    refine lt_of_lt_of_le ?_ (Binary64.two_pow_le_overflowBound (by decide : 64 ≤ 1023))
    norm_num at targetBound differenceBound ⊢
    linarith
  have half : halfUnit ≤ 1 / 2 ^ 54 :=
    one_div_le_one_div_of_le (by positivity) (pow_le_pow_right₀ one_le_two (by decide))
  have last := alike.abs_sub_le differenceFinite
  have shift := abs_abs_sub_abs_le difference (fraction - target)
  have shift' := abs_abs_sub_abs_le (toBinary64 fraction - toBinary64 target).toRat difference
  have total := abs_sub_le (|(toBinary64 fraction - toBinary64 target).toRat|) (|difference|)
    (|fraction - target|)
  refine ⟨(Binary64.isFinite_abs _).trans differenceFinite, ?_⟩
  rw [distance, Binary64.toRat_abs, distanceError]
  linarith [abs_nonneg target]

/-! ## The nearer of two neighbours -/

/-- **No fraction within the bound is nearer than both neighbours.** -/
theorem Neighbours.nearest (neighbours : Neighbours bound target first second) {other : ℚ}
    (small : other.den ≤ bound) :
    |first - target| ≤ |other - target| ∨ |second - target| ≤ |other - target| := by
  have outside := neighbours.empty other small
  obtain ⟨lower, upper⟩ := neighbours.around
  rw [Set.uIoo, Set.mem_Ioo, not_and_or, not_lt, not_lt] at outside
  rcases outside with below | above
  · rcases min_choice first second with same | same <;> rw [same] at lower below
    · left
      rw [abs_of_nonpos (by linarith), abs_of_nonpos (by linarith)]
      linarith
    · right
      rw [abs_of_nonpos (by linarith), abs_of_nonpos (by linarith)]
      linarith
  · rcases max_choice first second with same | same <;> rw [same] at upper above
    · left
      rw [abs_of_nonneg (by linarith), abs_of_nonneg (by linarith)]
      linarith
    · right
      rw [abs_of_nonneg (by linarith), abs_of_nonneg (by linarith)]
      linarith

/-- The distance of two fractions counts parts of the product of their denominators. -/
theorem exists_abs_sub_eq (first second : ℚ) :
    ∃ parts : ℤ, |first - second| = parts / ((first.den : ℚ) * second.den) := by
  have firstPos : (0 : ℚ) < first.den := Nat.cast_pos.mpr first.den_pos
  have secondPos : (0 : ℚ) < second.den := Nat.cast_pos.mpr second.den_pos
  refine ⟨|first.num * second.den - first.den * second.num|, ?_⟩
  rw [← abs_of_pos (mul_pos firstPos secondPos), Int.cast_abs, ← abs_div]
  push_cast
  rw [← div_sub_div _ _ firstPos.ne' secondPos.ne', Rat.num_div_den, Rat.num_div_den]

/-- Different distances from a target differ by a part of the product of all denominators. -/
theorem one_div_le_sub_of_lt (less : |second - target| < |first - target|) :
    1 / ((first.den : ℚ) * second.den * target.den) ≤ |first - target| - |second - target| := by
  have firstPos : (0 : ℚ) < first.den := Nat.cast_pos.mpr first.den_pos
  have secondPos : (0 : ℚ) < second.den := Nat.cast_pos.mpr second.den_pos
  have targetPos : (0 : ℚ) < target.den := Nat.cast_pos.mpr target.den_pos
  obtain ⟨parts, same⟩ := exists_abs_sub_eq first target
  obtain ⟨parts', same'⟩ := exists_abs_sub_eq second target
  have counted : |first - target| - |second - target| =
      (parts * second.den - parts' * first.den : ℤ) /
        ((first.den : ℚ) * second.den * target.den) := by
    rw [same, same']
    push_cast
    field_simp
  rw [counted]
  refine div_le_div_of_nonneg_right ?_ (by positivity)
  have positive := sub_pos.mpr less
  rw [counted, div_pos_iff_of_pos_right (by positivity)] at positive
  exact_mod_cast Int.cast_pos.mp positive

/-! ## What is found -/

/-- The parts of the candidates are no larger than those of the target. -/
theorem small_candidates (positive : 1 ≤ bound) (small : Small target)
    (outside : ¬ target.den ≤ bound) :
    let expansion := (Expansion.start target.num.natAbs target.den).walk bound
    Small expansion.convergent ∧ Small (expansion.semiconvergent bound) := by
  intro expansion
  have keeps := Expansion.keeps_start target.reduced positive
  have stops := Expansion.walk_stops keeps (Nat.not_le.mp outside)
  have bounded := stops.semiconvergent_bounds positive
  have inside : ∀ {size : ℕ}, size ≤ bound → size ≤ scale := fun le =>
    le.trans ((Nat.not_le.mp outside).le.trans small.den)
  constructor
  · refine ⟨(Words.natAbs_num_mkRat_le _ _).trans_lt ?_, ?_⟩
    · rw [Int.natAbs_natCast]
      exact (stops.numerator_le positive).trans_lt small.num
    · exact inside ((Words.den_mkRat_le _ (stops.denominator_pos positive)).trans
        stops.keeps.within.1)
  · refine ⟨(Words.natAbs_num_mkRat_le _ _).trans_lt ?_, ?_⟩
    · rw [Int.natAbs_natCast]
      exact bounded.1.trans_lt small.num
    · exact inside ((Words.den_mkRat_le _ (stops.semiconvergent_pos positive)).trans bounded.2)

/-- Of two neighbours the one whose computed distance is not the larger one is not much
farther. -/
theorem Neighbours.not_much_farther (neighbours : Neighbours bound target first second)
    (positive : 1 ≤ bound) (outside : ¬ target.den ≤ bound) (targetSmall : Small target)
    (firstSmall : Small first) (secondSmall : Small second)
    (nearer : (distance target first).toRat ≤ (distance target second).toRat) :
    |first - target| ≤ |second - target| + 2 * distanceError target := by
  have unit : (1 : ℚ) / bound ≤ 1 :=
    div_le_one_of_le₀ (Nat.one_le_cast.mpr positive) (Nat.cast_nonneg _)
  have error := (distance_error firstSmall targetSmall
    ((neighbours.oneSided outside).near.trans unit)).2
  have error' := (distance_error secondSmall targetSmall
    ((neighbours.symm.oneSided outside).near.trans unit)).2
  linarith [(abs_le.mp error).1, (abs_le.mp error').2]

/-- Where the target has too large a denominator, one of two neighbours is found, and the
other one is not much nearer. -/
theorem exists_neighbours (positive : 1 ≤ bound) (unsigned : 0 ≤ target)
    (small : Small target) (outside : ¬ target.den ≤ bound) :
    ∃ other, Neighbours bound target (withinBound bound target) other ∧
      |withinBound bound target - target| ≤ |other - target| + 2 * distanceError target := by
  have neighbours := neighbours_walk positive unsigned outside
  obtain ⟨lastSmall, semiSmall⟩ := small_candidates positive small outside
  rw [withinBound, if_neg outside]
  generalize (Expansion.start target.num.natAbs target.den).walk bound = expansion at *
  dsimp only at neighbours lastSmall semiSmall ⊢
  have unit : (1 : ℚ) / bound ≤ 1 :=
    div_le_one_of_le₀ (Nat.one_le_cast.mpr positive) (Nat.cast_nonneg _)
  have finite := (distance_error lastSmall small
    ((neighbours.oneSided outside).near.trans unit)).1
  have finite' := (distance_error semiSmall small
    ((neighbours.symm.oneSided outside).near.trans unit)).1
  split
  · rename_i nearer
    rw [Binary64.le_iff_toRat finite finite'] at nearer
    exact ⟨_, neighbours,
      neighbours.not_much_farther positive outside small lastSmall semiSmall nearer⟩
  · rename_i farther
    rw [Binary64.le_iff_toRat finite finite', not_le] at farther
    exact ⟨_, neighbours.symm, neighbours.symm.not_much_farther positive outside small semiSmall
      lastSmall farther.le⟩

/-- No fraction within a bound is nearer to a target by more than a slack. -/
def NearestBut (slack : ℚ) (bound : ℕ) (target found : ℚ) : Prop :=
  ∀ other : ℚ, other.den ≤ bound → |found - target| ≤ |other - target| + slack

/-- The error of the distances is less than distances from the target differ by. -/
def Distinguished (bound : ℕ) (target : ℚ) : Prop :=
  (|target| + 1) * bound ^ 2 * target.den < 2 ^ 49

/-- A fraction is nearest to a target as far as the computed distances tell. -/
structure NearestComputed (bound : ℕ) (target found : ℚ) : Prop where
  nearly : NearestBut (2 * distanceError target) bound target found
  exactly : Distinguished bound target → NearestBut 0 bound target found

theorem NearestBut.neg (nearest : NearestBut slack bound target found) :
    NearestBut slack bound (-target) (-found) := by
  intro other inside
  have mirrored : |-other - target| = |other - -target| := by
    rw [sub_neg_eq_add, ← neg_add', abs_neg]
  rw [neg_sub_neg, abs_sub_comm, ← mirrored]
  exact nearest (-other) inside

theorem NearestComputed.neg (nearest : NearestComputed bound target found) :
    NearestComputed bound (-target) (-found) where
  nearly := by
    rw [distanceError, abs_neg]
    exact nearest.nearly.neg
  exactly distinguished := by
    rw [Distinguished, abs_neg, Rat.den_neg_eq_den] at distinguished
    exact (nearest.exactly distinguished).neg

/-- A neighbour that is not much farther is not farther at all, if the errors are small
enough. -/
theorem Neighbours.le_of_distinguished (neighbours : Neighbours bound target first second)
    (distinguished : Distinguished bound target)
    (near : |first - target| ≤ |second - target| + 2 * distanceError target) :
    |first - target| ≤ |second - target| := by
  by_contra farther
  have apart := one_div_le_sub_of_lt (not_le.mp farther)
  have firstPos : (0 : ℚ) < first.den := Nat.cast_pos.mpr first.den_pos
  have secondPos : (0 : ℚ) < second.den := Nat.cast_pos.mpr second.den_pos
  have targetPos : (0 : ℚ) < target.den := Nat.cast_pos.mpr target.den_pos
  have product : (first.den : ℚ) * second.den * target.den ≤ bound ^ 2 * target.den := by
    rw [sq]
    have firstInside : (first.den : ℚ) ≤ bound := Nat.cast_le.mpr neighbours.first_den
    have secondInside : (second.den : ℚ) ≤ bound := Nat.cast_le.mpr neighbours.second_den
    gcongr
  have tooMuch : 1 / ((first.den : ℚ) * second.den * target.den) ≤ (|target| + 1) / 2 ^ 49 := by
    rw [distanceError] at near
    linarith
  rw [div_le_div_iff₀ (by positivity) (by positivity), one_mul] at tooMuch
  have size := mul_le_mul_of_nonneg_left product (by positivity : 0 ≤ |target| + 1)
  rw [Distinguished, mul_assoc] at distinguished
  linarith

theorem nearestComputed_withinBound (positive : 1 ≤ bound)
    (unsigned : 0 ≤ target) (small : Small target) :
    NearestComputed bound target (withinBound bound target) := by
  by_cases inside : target.den ≤ bound
  · rw [withinBound, if_pos inside]
    constructor
    · intro other _
      rw [sub_self, abs_zero]
      linarith [abs_nonneg (other - target), distanceError_nonneg target]
    · intro _ other _
      rw [sub_self, abs_zero, add_zero]
      exact abs_nonneg _
  · obtain ⟨other, neighbours, near⟩ := exists_neighbours positive unsigned small inside
    constructor
    · intro any anyInside
      rcases neighbours.nearest anyInside with le | le <;> linarith [distanceError_nonneg target]
    · intro distinguished any anyInside
      have le' := neighbours.le_of_distinguished distinguished near
      rcases neighbours.nearest anyInside with le | le <;> linarith

theorem nearestComputed_withinBoundSigned (positive : 1 ≤ bound) (small : Small target) :
    NearestComputed bound target (withinBoundSigned bound target) := by
  rw [withinBoundSigned]
  split
  · rename_i below
    have negated : Small (-target) := by
      refine ⟨?_, small.den⟩
      rw [Rat.num_neg_eq_neg_num, Int.natAbs_neg]
      exact small.num
    simpa using (nearestComputed_withinBound positive (neg_nonneg.mpr (Rat.num_neg.mp below).le)
      negated).neg
  · rename_i above
    exact nearestComputed_withinBound positive (Rat.num_nonneg.mp (not_lt.mp above)) small

/-- The number that is looked for, as a fraction. -/
def roundedTarget (value : Binary64) : ℚ :=
  Binary64.roundedAway (value * .ofInt scale).toRat / 10 ^ 8

theorem roundedTarget?_small {value : Binary64}
    (known : roundedTarget? value = some target) : Small target := by
  rw [roundedTarget?_eq] at known
  split at known
  · cases known
  · rename_i inside
    obtain ⟨finite, below⟩ := not_or.mp inside
    have whole := Words.natAbs_truncate_lt (by simpa using finite) below
    rw [← Option.some.inj known]
    exact ⟨(Words.natAbs_num_mkRat_le _ _).trans_lt whole, Words.den_mkRat_le _ (by decide)⟩

/-- **What is found for a number is the nearest fraction within the bound, as far as the
computed distances tell.**  No such fraction is nearer by more than one part in `2 ^ 49` of a
number larger than the target by one.  None is nearer at all if different distances of such
fractions from the target are farther apart than that. -/
theorem nearest_of_closest {value : Binary64} {bound : ℤ}
    (isFound : closest? value bound = .ok (some found)) (p : ℤ) {q : ℤ} (positive : 1 ≤ q)
    (within : q ≤ bound) :
    |found - roundedTarget value| ≤
        |p / q - roundedTarget value| + (|roundedTarget value| + 1) / 2 ^ 49 ∧
      ((|roundedTarget value| + 1) * bound ^ 2 * (roundedTarget value).den < 2 ^ 49 →
        |found - roundedTarget value| ≤ |p / q - roundedTarget value|) := by
  have allowed : 1 ≤ bound := positive.trans within
  rw [closest?_eq value allowed] at isFound
  obtain ⟨target, known, rfl⟩ := Option.map_eq_some_iff.mp (Except.ok.inj isFound)
  have same : roundedTarget value = target := (roundedTarget?_eq_some known).2.symm
  obtain ⟨size, rfl⟩ := Int.eq_ofNat_of_zero_le (show 0 ≤ bound by omega)
  obtain ⟨count, rfl⟩ := Int.eq_ofNat_of_zero_le (show 0 ≤ q by omega)
  have nearest := nearestComputed_withinBoundSigned (show 1 ≤ size by omega)
    (roundedTarget?_small known)
  have inside : ((p : ℚ) / ((count : ℤ) : ℚ)).den ≤ size := by
    rw [Int.cast_natCast, ← Rat.mkRat_eq_div]
    exact (Words.den_mkRat_le p (by omega)).trans (by omega)
  rw [same, Int.toNat_natCast]
  constructor
  · have le := nearest.nearly _ inside
    rw [distanceError] at le
    linarith
  · intro distinguished
    rw [Int.cast_natCast] at distinguished
    exact (nearest.exactly distinguished _ inside).trans_eq (add_zero _)

/-- No fraction with a denominator up to ten is nearer to a third at eight places than a third
is; three tenths are one. -/
theorem nearest_of_closest_third :
    closest? (1 / 3) 10 = .ok (some (1 / 3)) ∧ (1 : ℤ) ≤ 10 ∧ (10 : ℤ) ≤ 10 ∧
      |1 / 3 - roundedTarget (1 / 3)| ≤ |(3 : ℤ) / (10 : ℤ) - roundedTarget (1 / 3)| := by
  have isFound : closest? (1 / 3) 10 = .ok (some (1 / 3)) := by decide +kernel
  have known : roundedTarget? (1 / 3) = some (33333333 / 100000000) := by decide +kernel
  have target : roundedTarget (1 / 3) = 33333333 / 100000000 :=
    (roundedTarget?_eq_some known).2.symm
  have distinguished : (|roundedTarget (1 / 3)| + 1) * (10 : ℤ) ^ 2 * (roundedTarget (1 / 3)).den <
      2 ^ 49 := by
    have den : ((33333333 : ℚ) / 100000000).den = 100000000 := by decide +kernel
    rw [target, den]
    norm_num
  exact ⟨isFound, by decide, by decide,
    (nearest_of_closest isFound 3 (by decide) (by decide)).2 distinguished⟩

/-- **The farther candidate may be found.**  The target is a little more than
`50000000003.25`, but both candidates have a computed distance of a quarter. -/
theorem closest_farther :
    closest? (200000000013 / 4) 2 = .ok (some 50000000003) ∧
      |100000000007 / 2 - roundedTarget (200000000013 / 4)| <
        |50000000003 - roundedTarget (200000000013 / 4)| := by
  have known : roundedTarget? (200000000013 / 4) = some (19531250001269532 / 390625) := by
    decide +kernel
  have target : roundedTarget (200000000013 / 4) = 19531250001269532 / 390625 :=
    (roundedTarget?_eq_some known).2.symm
  refine ⟨by decide +kernel, ?_⟩
  rw [target]
  norm_num

end Quadratics.Fraction
