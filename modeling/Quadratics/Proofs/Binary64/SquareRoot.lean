import Quadratics.Proofs.Binary64.Precision

/-!
# Square roots, rounded once

The square root of a count is looked for on the grid that a full significand leaves.  Its
integer part there has all the bits of a significand (`rootFloor_range`), and the halfway
points around the significand that is taken enclose the root (`rootSignificand_bounds`).

So the root of a positive number is off by one part in `2 ^ 53` at most, whatever the scale
of the number: roots are far from both ends of the range (`nearRoot_sqrt`).  What is said of
the root is said of its square, which is a rational number.  The root of a square that is a
binary64 number itself is exact (`sqrt_of_square`).
-/

namespace Quadratics.Binary64

set_option autoImplicit false

variable {x y : Binary64} {count : Nat}

/-! ## Roots of counts -/

/-- How many low bits of the root of a count a significand cannot hold. -/
def droppedRootBits (count : Nat) : Nat :=
  count.log2 / 2 - 52

/-- The integer part of the root of a count, without its dropped bits. -/
def rootFloor (count : Nat) : Nat :=
  Nat.sqrt (count >>> (2 * droppedRootBits count))

/-- The significand that the root of a count gets, before a carry. -/
def rootSignificand (count : Nat) : Nat :=
  if ((2 * rootFloor count + 1) * (2 * rootFloor count + 1)) <<< (2 * droppedRootBits count) <
      4 * count then rootFloor count + 1
  else rootFloor count

theorem sqrtCount_eq (count : Nat) :
    sqrtCount count = ofScaled false (rootSignificand count) (droppedRootBits count) := rfl

theorem two_pow_shiftLeft (bits shift : Nat) : 2 ^ bits <<< shift = 2 ^ (bits + shift) := by
  rw [Nat.shiftLeft_eq, pow_add]

theorem shiftLeft_double (number bits : Nat) :
    number <<< (2 * bits) = number * (2 ^ bits * 2 ^ bits) := by
  rw [Nat.shiftLeft_eq, two_mul, pow_add]

/-- The count lies between the squares of the integer part and its successor. -/
theorem rootFloor_bounds (count : Nat) :
    (rootFloor count * 2 ^ droppedRootBits count) * (rootFloor count * 2 ^ droppedRootBits count) ≤
        count ∧
      count < ((rootFloor count + 1) * 2 ^ droppedRootBits count) *
        ((rootFloor count + 1) * 2 ^ droppedRootBits count) := by
  have shifted : count >>> (2 * droppedRootBits count) =
      count / (2 ^ droppedRootBits count * 2 ^ droppedRootBits count) := by
    rw [Nat.shiftRight_eq_div_pow, two_mul, pow_add]
  have positive : 0 < 2 ^ droppedRootBits count * 2 ^ droppedRootBits count := by positivity
  have lower : rootFloor count * rootFloor count ≤ _ := Nat.sqrt_le _
  have upper : _ < (rootFloor count + 1) * (rootFloor count + 1) := Nat.lt_succ_sqrt _
  rw [shifted, Nat.le_div_iff_mul_le positive] at lower
  rw [shifted, Nat.div_lt_iff_lt_mul positive] at upper
  rw [mul_mul_mul_comm, mul_mul_mul_comm (rootFloor count + 1)]
  exact ⟨lower, upper⟩

/-- The integer part has all the bits of a significand. -/
theorem rootFloor_range (large : 2 ^ 104 ≤ count) :
    2 ^ 52 ≤ rootFloor count ∧ rootFloor count < 2 ^ 53 := by
  have nonzero : count ≠ 0 := by
    rintro rfl
    exact absurd large (by decide)
  have long : 104 ≤ count.log2 := (Nat.le_log2 nonzero).mpr large
  have exponent : droppedRootBits count = count.log2 / 2 - 52 := rfl
  obtain ⟨lower, upper⟩ := rootFloor_bounds count
  constructor
  · by_contra short
    have bounded : (rootFloor count + 1) * 2 ^ droppedRootBits count ≤ 2 ^ (count.log2 / 2) := by
      calc (rootFloor count + 1) * 2 ^ droppedRootBits count
          ≤ 2 ^ 52 * 2 ^ droppedRootBits count :=
            Nat.mul_le_mul_right _ (Nat.succ_le_of_lt (Nat.not_le.mp short))
        _ = 2 ^ (count.log2 / 2) := by rw [← pow_add]; congr 1; omega
    have square := upper.trans_le (Nat.mul_le_mul bounded bounded)
    rw [← pow_add] at square
    exact absurd ((Nat.log2_lt nonzero).mpr square) (by omega)
  · by_contra full
    have bounded : 2 ^ (count.log2 / 2 + 1) ≤ rootFloor count * 2 ^ droppedRootBits count := by
      calc 2 ^ (count.log2 / 2 + 1) = 2 ^ 53 * 2 ^ droppedRootBits count := by
            rw [← pow_add]; congr 1; omega
        _ ≤ rootFloor count * 2 ^ droppedRootBits count :=
            Nat.mul_le_mul_right _ (Nat.not_lt.mp full)
    have square := (Nat.mul_le_mul bounded bounded).trans lower
    rw [← pow_add] at square
    exact absurd ((Nat.le_log2 nonzero).mpr square) (by omega)

/-- The halfway points around the significand enclose the root. -/
theorem rootSignificand_bounds (count : Nat) :
    (2 * rootSignificand count - 1) * 2 ^ droppedRootBits count *
        ((2 * rootSignificand count - 1) * 2 ^ droppedRootBits count) ≤ 4 * count ∧
      4 * count ≤ (2 * rootSignificand count + 1) * 2 ^ droppedRootBits count *
        ((2 * rootSignificand count + 1) * 2 ^ droppedRootBits count) := by
  obtain ⟨lower, upper⟩ := rootFloor_bounds count
  unfold rootSignificand
  rw [shiftLeft_double, mul_mul_mul_comm (2 * rootFloor count + 1)]
  generalize rootFloor count = floor at *
  generalize 2 ^ droppedRootBits count = unit at *
  split
  · rename_i above
    have same : 2 * (floor + 1) - 1 = 2 * floor + 1 := by omega
    rw [same]
    exact ⟨above.le, by nlinarith⟩
  · rename_i below
    have smaller : 2 * floor - 1 ≤ 2 * floor := Nat.sub_le _ _
    refine ⟨?_, Nat.not_lt.mp below⟩
    calc (2 * floor - 1) * unit * ((2 * floor - 1) * unit)
        ≤ 2 * floor * unit * (2 * floor * unit) := by gcongr
      _ = 4 * (floor * unit * (floor * unit)) := by ring
      _ ≤ 4 * count := Nat.mul_le_mul_left _ lower

theorem rootSignificand_range (large : 2 ^ 104 ≤ count) :
    2 ^ 52 ≤ rootSignificand count ∧ rootSignificand count ≤ 2 ^ 53 := by
  obtain ⟨lower, upper⟩ := rootFloor_range large
  unfold rootSignificand
  split <;> omega

/-- The root of a square is on the grid of the count. -/
theorem rootSignificand_mul_of_square {number : Nat} (large : 2 ^ 104 ≤ count)
    (square : count = number * number)
    (grid : (∃ multiple, number = multiple <<< droppedRootBits count) ∨
      (droppedRootBits count ≠ 0 ∧ number < 2 ^ 52 <<< droppedRootBits count)) :
    rootSignificand count * 2 ^ droppedRootBits count = number := by
  obtain ⟨lower, upper⟩ := rootFloor_bounds count
  obtain ⟨leading, -⟩ := rootFloor_range large
  have unitPositive : 0 < 2 ^ droppedRootBits count := by positivity
  have above : rootFloor count * 2 ^ droppedRootBits count ≤ number :=
    Nat.mul_self_le_mul_self_iff.mp (lower.trans_eq square)
  have below : number < (rootFloor count + 1) * 2 ^ droppedRootBits count :=
    Nat.mul_self_lt_mul_self_iff.mp (square.symm.trans_lt upper)
  simp only [Nat.shiftLeft_eq] at grid
  rcases grid with ⟨multiple, onGrid⟩ | ⟨-, short⟩
  · have same : rootFloor count = multiple := by
      rw [onGrid] at above below
      have atMost := Nat.le_of_mul_le_mul_right above unitPositive
      have lessThan := Nat.lt_of_mul_lt_mul_right below
      omega
    have exact : 4 * count = (2 * multiple) * (2 * multiple) *
        (2 ^ droppedRootBits count * 2 ^ droppedRootBits count) := by
      rw [mul_mul_mul_comm (2 * multiple), mul_assoc 2 multiple, ← onGrid]
      linarith
    have notAbove : ¬ ((2 * rootFloor count + 1) * (2 * rootFloor count + 1)) <<<
        (2 * droppedRootBits count) < 4 * count := by
      rw [shiftLeft_double, exact, same, Nat.not_lt]
      exact Nat.mul_le_mul_right _ (Nat.mul_self_le_mul_self (Nat.le_succ _))
    rw [rootSignificand, if_neg notAbove, same, onGrid]
  · exact absurd (short.trans_le (Nat.mul_le_mul_right _ leading)) (Nat.not_lt.mpr above)

/-! ## Roots of numbers -/

/-- The count whose root is the magnitude of the root of a number. -/
def squareCount (x : Binary64) : Nat :=
  x.magnitude * unitsPerOne

section Positive

variable (finite : x.isFinite = true) (positive : 0 < x.toRat)

include positive in
theorem negative_of_pos : x.negative = false := by
  by_contra negative
  rw [Bool.not_eq_false] at negative
  have opposite : 0 ≤ (-x).toRat := toRat_nonneg (by rw [negative_neg, negative]; rfl)
  rw [toRat_neg] at opposite
  linarith

include finite positive

theorem magnitude_pos : 0 < x.magnitude := by
  rw [Nat.pos_iff_ne_zero]
  intro zero
  exact positive.ne' ((vanishes_iff_toRat finite).mp ⟨finite, zero⟩)

theorem sqrt_eq_sqrtCount : x.sqrt = sqrtCount x.squareCount := by
  have nonzero := (magnitude_pos finite positive).ne'
  have unsigned := negative_of_pos positive
  match x, finite with
  | .finite _ _ _ _, _ =>
    change _ = false at unsigned
    subst unsigned
    simp only [sqrt, if_neg nonzero, Bool.false_eq_true, if_false, squareCount]

theorem squareCount_range : 2 ^ 104 ≤ x.squareCount ∧ x.squareCount < 2 ^ (54 + 2044 + 1074) := by
  have above : 2 ^ 104 ≤ unitsPerOne := by
    rw [unitsPerOne_eq]
    exact pow_le_pow_right₀ one_le_two (by decide)
  have below : x.magnitude < 2 ^ 54 <<< 2044 :=
    (magnitude_lt_overflowCount finite).trans_le (@overflowCount_le 54 2044 rfl)
  have scaled := Nat.mul_lt_mul_of_pos_right below unitsPerOne_pos
  rw [two_pow_shiftLeft, unitsPerOne_eq, ← pow_add 2 (54 + 2044) 1074] at scaled
  refine ⟨above.trans (Nat.le_mul_of_pos_left _ (magnitude_pos finite positive)), ?_⟩
  rw [squareCount, unitsPerOne_eq]
  exact scaled

/-- The root of a positive number is finite, and its magnitude is known. -/
theorem magnitude_sqrt : x.sqrt.isFinite = true ∧
    x.sqrt.magnitude = rootSignificand x.squareCount * 2 ^ droppedRootBits x.squareCount := by
  obtain ⟨large, small⟩ := squareCount_range finite positive
  obtain ⟨lower, upper⟩ := rootSignificand_range large
  have short : droppedRootBits x.squareCount ≤ 2044 := by
    have nonzero : x.squareCount ≠ 0 := by positivity
    have bits := (Nat.log2_lt nonzero).mpr small
    unfold droppedRootBits
    omega
  rw [sqrt_eq_sqrtCount finite positive, sqrtCount_eq]
  rcases ofScaled_cases false upper (.inl lower) with ⟨isFinite, magnitude, -⟩ | ⟨-, long⟩
  · exact ⟨isFinite, magnitude.trans (Nat.shiftLeft_eq _ _)⟩
  · split at long <;> omega

end Positive

/-- A root that was rounded once: it is off by one part in `2 ^ 53` of itself at most. -/
structure NearRoot (x root : Binary64) : Prop where
  finite : root.isFinite = true
  positive : 0 < root.toRat
  lower : ((1 - 1 / 2 ^ 53) * root.toRat) ^ 2 ≤ x.toRat
  upper : x.toRat ≤ ((1 + 1 / 2 ^ 53) * root.toRat) ^ 2

/-- The square of such a root, beside the number. -/
theorem NearRoot.abs_sub_le {root : Binary64} (near : NearRoot x root) :
    |x.toRat - root.toRat ^ 2| ≤ root.toRat ^ 2 / 2 ^ 51 := by
  have lower := near.lower
  have upper := near.upper
  rw [mul_pow] at lower upper
  rw [abs_le]
  constructor <;> linarith [sq_nonneg root.toRat]

/-- Such a root with either sign. -/
theorem NearRoot.signed {root : Binary64} (near : NearRoot x root)
    (signed : y = root ∨ y = -root) : y.isFinite = true ∧ |y.toRat| = root.toRat := by
  rcases signed with rfl | rfl
  · exact ⟨near.finite, abs_of_pos near.positive⟩
  · refine ⟨(isFinite_neg _).trans near.finite, ?_⟩
    rw [toRat_neg, abs_eq_abs.mpr (.inr rfl), abs_of_pos near.positive]

theorem toRat_of_pos (positive : 0 < x.toRat) : x.toRat = x.magnitude / unitsPerOne := by
  rw [← abs_of_pos positive, abs_toRat]

/-- A number times a scale, and the grid on that scale, squared. -/
theorem nearRoot_of_grid {value root scale grid : ℚ} (scalePositive : 0 < scale)
    (rootPositive : 0 < root) (fine : 2 ^ 52 * grid ≤ root * scale)
    (lower : (2 * (root * scale) - grid) ^ 2 ≤ 4 * (value * scale ^ 2))
    (upper : 4 * (value * scale ^ 2) ≤ (2 * (root * scale) + grid) ^ 2) (gridNonneg : 0 ≤ grid) :
    ((1 - 1 / 2 ^ 53) * root) ^ 2 ≤ value ∧ value ≤ ((1 + 1 / 2 ^ 53) * root) ^ 2 := by
  have squared : 0 < 4 * scale ^ 2 := by positivity
  have product : 0 < root * scale := mul_pos rootPositive scalePositive
  constructor
  · refine le_of_mul_le_mul_right ?_ squared
    calc ((1 - 1 / 2 ^ 53) * root) ^ 2 * (4 * scale ^ 2)
        = (2 * (root * scale) - root * scale / 2 ^ 52) ^ 2 := by ring
      _ ≤ (2 * (root * scale) - grid) ^ 2 := by
          refine pow_le_pow_left₀ ?_ ?_ 2 <;> linarith
      _ ≤ value * (4 * scale ^ 2) := lower.trans_eq (by ring)
  · refine le_of_mul_le_mul_right ?_ squared
    calc value * (4 * scale ^ 2) = 4 * (value * scale ^ 2) := by ring
      _ ≤ (2 * (root * scale) + grid) ^ 2 := upper
      _ ≤ (2 * (root * scale) + root * scale / 2 ^ 52) ^ 2 := by
          refine pow_le_pow_left₀ ?_ ?_ 2 <;> linarith
      _ = ((1 + 1 / 2 ^ 53) * root) ^ 2 * (4 * scale ^ 2) := by ring

theorem toRat_sqrt_mul (finite : x.isFinite = true) (positive : 0 < x.toRat) :
    x.sqrt.toRat * unitsPerOne =
      rootSignificand x.squareCount * 2 ^ droppedRootBits x.squareCount := by
  have unsigned : x.sqrt.negative = false := by
    rw [sqrt_eq_sqrtCount finite positive, sqrtCount_eq, negative_ofScaled]
  rw [toRat_eq, unsigned, (magnitude_sqrt finite positive).2]
  show (_ : ℚ) / unitsPerOne * unitsPerOne = _
  rw [div_mul_cancel₀ _ unitsPerOne_cast_pos.ne']
  push_cast
  rfl

/-- **The square root is rounded once.** -/
theorem nearRoot_sqrt (finite : x.isFinite = true) (positive : 0 < x.toRat) :
    NearRoot x x.sqrt := by
  have unitPositive := unitsPerOne_cast_pos
  obtain ⟨leading, -⟩ := rootSignificand_range (squareCount_range finite positive).1
  obtain ⟨lower, upper⟩ := rootSignificand_bounds x.squareCount
  have count : (x.squareCount : ℚ) = x.toRat * unitsPerOne ^ 2 := by
    rw [toRat_of_pos positive, squareCount, Nat.cast_mul]
    field_simp
  have root := toRat_sqrt_mul finite positive
  have rootPositive : 0 < x.sqrt.toRat := by
    refine pos_of_mul_pos_left ?_ unitPositive.le
    rw [root]
    positivity
  have leadingCast : (2 : ℚ) ^ 52 ≤ rootSignificand x.squareCount := by exact_mod_cast leading
  have bounds := @nearRoot_of_grid x.toRat x.sqrt.toRat unitsPerOne
    (2 ^ droppedRootBits x.squareCount) unitPositive rootPositive
    (by rw [root]; exact mul_le_mul_of_nonneg_right leadingCast (by positivity))
    (by
      have lowerCast : ((((2 * rootSignificand x.squareCount - 1 : Nat) : ℚ) *
          2 ^ droppedRootBits x.squareCount)) ^ 2 ≤ 4 * x.squareCount := by
        rw [sq]
        exact_mod_cast lower
      rw [Nat.cast_sub (by omega)] at lowerCast
      rw [← count, root]
      refine le_trans (le_of_eq ?_) lowerCast
      push_cast
      ring)
    (by
      have upperCast : (4 * x.squareCount : ℚ) ≤
          ((2 * rootSignificand x.squareCount + 1) * 2 ^ droppedRootBits x.squareCount) ^ 2 := by
        rw [sq]
        exact_mod_cast upper
      rw [← count, root]
      exact upperCast.trans_eq (by ring))
    (by positivity)
  exact ⟨(magnitude_sqrt finite positive).1, rootPositive, bounds.1, bounds.2⟩

/-- The square root of a number that is not negative is finite. -/
theorem isFinite_sqrt (finite : x.isFinite = true) (nonneg : 0 ≤ x.toRat) :
    x.sqrt.isFinite = true := by
  rcases nonneg.eq_or_lt with zero | positive
  · obtain ⟨-, vanishes⟩ := (vanishes_iff_toRat finite).mpr zero.symm
    match x, finite, vanishes with
    | .finite _ _ _ _, finite, vanishes =>
      rw [sqrt, if_pos vanishes]
      exact finite
  · exact (nearRoot_sqrt finite positive).finite

/-- **The square root of a square is exact.** -/
theorem sqrt_of_square (xFinite : x.isFinite = true) (yFinite : y.isFinite = true)
    (positive : 0 < y.toRat) (square : x.toRat = y.toRat ^ 2) : x.sqrt = y := by
  have unitPositive := unitsPerOne_cast_pos
  have xPositive : 0 < x.toRat := square ▸ pow_pos positive 2
  have count : x.squareCount = y.magnitude * y.magnitude := by
    have same := square
    rw [toRat_of_pos xPositive, toRat_of_pos positive, div_pow, div_eq_div_iff unitPositive.ne'
      (by positivity), sq (unitsPerOne : ℚ), ← mul_assoc] at same
    have reduced := mul_right_cancel₀ unitPositive.ne' same
    rw [squareCount, ← sq]
    exact_mod_cast reduced
  obtain ⟨large, -⟩ := squareCount_range xFinite xPositive
  obtain ⟨rootFinite, magnitude⟩ := magnitude_sqrt xFinite xPositive
  have unsigned : x.sqrt.negative = false := by
    rw [sqrt_eq_sqrtCount xFinite xPositive, sqrtCount_eq, negative_ofScaled]
  refine eq_of_magnitude_eq rootFinite yFinite (unsigned.trans (negative_of_pos positive).symm) ?_
  rw [magnitude]
  exact rootSignificand_mul_of_square large count (magnitude_grid y _)

end Quadratics.Binary64
