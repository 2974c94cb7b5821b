import Mathlib.Tactic
import Quadratics.Binary64.Rounding

/-!
# The grid of finite numbers, and rounding to it

The magnitude of a finite number determines its canonical spelling
(`canonical_unique`).  What `ofQuotient` returns is described in the same counts:
its sign is the given one (`negative_ofQuotient`), its magnitude is the nearest
multiple of the last bit that a significand can hold (`magnitude_ofQuotient`),
and it is finite just below the halfway point between the largest finite number
and the next power of two (`isFinite_ofQuotient`).

No finite number is nearer to the quotient than the one returned, and of two
equally near ones it is the one with the even significand
(`roundedSignificand_nearest`).  A quotient that is a magnitude already is kept
(`ofQuotient_exact`), and one that is no larger than a magnitude rounds to nothing
larger (`ofQuotient_le`).
-/

namespace Quadratics.Binary64

set_option autoImplicit false

/-! ## Canonical spellings -/

theorem significandLimit_eq : significandLimit = 2 ^ 53 := Nat.one_shiftLeft 53

theorem leadingBit_eq : leadingBit = 2 ^ 52 := Nat.one_shiftLeft 52

theorem unitsPerOne_eq : unitsPerOne = 2 ^ 1074 := Nat.one_shiftLeft 1074

theorem unitsPerOne_pos : 0 < unitsPerOne := by
  rw [unitsPerOne_eq]
  exact Nat.two_pow_pos 1074

theorem canonical_iff {significand exponent : Nat} :
    Canonical significand exponent ↔
      significand < 2 ^ 53 ∧ (2 ^ 52 ≤ significand ∨ exponent = 0) ∧ exponent ≤ 2045 := by
  rw [Canonical, significandLimit_eq, leadingBit_eq]
  rfl

/-- The binary length of a magnitude gives its exponent away. -/
theorem exponent_eq_log2 {significand exponent : Nat} (canonical : Canonical significand exponent) :
    (significand <<< exponent).log2 - 52 = exponent := by
  obtain ⟨below, leading, -⟩ := canonical_iff.mp canonical
  rw [Nat.shiftLeft_eq]
  rcases leading with leading | rfl
  · have positive : significand * 2 ^ exponent ≠ 0 := by positivity
    have lower : 52 + exponent ≤ (significand * 2 ^ exponent).log2 := by
      rw [Nat.le_log2 positive, pow_add]
      exact Nat.mul_le_mul_right _ leading
    have upper : (significand * 2 ^ exponent).log2 < 53 + exponent := by
      rw [Nat.log2_lt positive, pow_add]
      exact Nat.mul_lt_mul_of_pos_right below (Nat.two_pow_pos _)
    omega
  · rcases Nat.eq_zero_or_pos significand with rfl | positive
    · rfl
    · have upper : (significand * 2 ^ 0).log2 < 53 := by
        rw [Nat.log2_lt (by omega), pow_zero, Nat.mul_one]
        exact below
      omega

/-- A magnitude has one canonical spelling. -/
theorem canonical_unique {significand exponent significand' exponent' : Nat}
    (canonical : Canonical significand exponent) (canonical' : Canonical significand' exponent')
    (same : significand <<< exponent = significand' <<< exponent') :
    significand = significand' ∧ exponent = exponent' := by
  have exponents : exponent = exponent' := by
    rw [← exponent_eq_log2 canonical, same, exponent_eq_log2 canonical']
  subst exponents
  rw [Nat.shiftLeft_eq, Nat.shiftLeft_eq] at same
  exact ⟨Nat.eq_of_mul_eq_mul_right (Nat.two_pow_pos _) same, rfl⟩

/-- Finite numbers of one sign and one magnitude are the same. -/
theorem eq_of_magnitude_eq {x y : Binary64} (xFinite : x.isFinite = true)
    (yFinite : y.isFinite = true) (signs : x.negative = y.negative)
    (magnitudes : x.magnitude = y.magnitude) : x = y := by
  match x, y, xFinite, yFinite with
  | .finite _ significand exponent canonical, .finite _ significand' exponent' canonical', _, _ =>
    obtain ⟨rfl, rfl⟩ := canonical_unique canonical canonical' magnitudes
    cases signs
    rfl

/-! ## The nearest natural number -/

theorem nearestEven_cases (numerator denominator : Nat) :
    (nearestEven numerator denominator = numerator / denominator ∧
        2 * (numerator % denominator) ≤ denominator) ∨
      (nearestEven numerator denominator = numerator / denominator + 1 ∧
        denominator ≤ 2 * (numerator % denominator)) := by
  simp only [nearestEven]
  split
  · exact .inl ⟨rfl, by omega⟩
  · split
    · exact .inr ⟨rfl, by omega⟩
    · rcases Nat.mod_two_eq_zero_or_one (numerator / denominator) with even | odd
      · exact .inl ⟨by omega, by omega⟩
      · exact .inr ⟨by omega, by omega⟩

/-- A multiple is its own nearest one. -/
theorem nearestEven_mul {multiple denominator : Nat} (positive : 0 < denominator) :
    nearestEven (multiple * denominator) denominator = multiple := by
  simp only [nearestEven]
  rw [Nat.mul_mod_left, Nat.mul_div_cancel _ positive]
  simp only [Nat.mul_zero, positive, if_true]

/-- Any multiple of the denominator is at least as far from the numerator as the
nearest one. -/
theorem nearestEven_nearest {numerator denominator : Nat} (positive : 0 < denominator)
    (other : Nat) :
    ((nearestEven numerator denominator * denominator : Nat) - numerator : Int).natAbs ≤
      ((other * denominator : Nat) - numerator : Int).natAbs := by
  have divided := Nat.div_add_mod' numerator denominator
  have remainder := Nat.mod_lt numerator positive
  have side : other * denominator ≤ numerator / denominator * denominator ∨
      numerator / denominator * denominator + denominator ≤ other * denominator := by
    rcases Nat.lt_or_ge (numerator / denominator) other with above | below
    · exact .inr (by simpa only [Nat.succ_mul] using Nat.mul_le_mul_right denominator above)
    · exact .inl (Nat.mul_le_mul_right denominator below)
  rcases nearestEven_cases numerator denominator with ⟨down, half⟩ | ⟨up, half⟩
  · rw [down]
    omega
  · rw [up, Nat.succ_mul]
    omega

/-- Where another multiple is as near, the nearest one that is returned is even. -/
theorem nearestEven_even {numerator denominator other : Nat} (positive : 0 < denominator)
    (different : other ≠ nearestEven numerator denominator)
    (tie : ((nearestEven numerator denominator * denominator : Nat) - numerator : Int).natAbs =
      ((other * denominator : Nat) - numerator : Int).natAbs) :
    nearestEven numerator denominator % 2 = 0 := by
  have divided := Nat.div_add_mod' numerator denominator
  have remainder := Nat.mod_lt numerator positive
  -- The two multiples around the numerator are the only candidates for a tie.
  have side : other * denominator + denominator ≤ numerator / denominator * denominator ∨
      other = numerator / denominator ∨ other = numerator / denominator + 1 ∨
      numerator / denominator * denominator + 2 * denominator ≤ other * denominator := by
    rcases Nat.lt_or_ge other (numerator / denominator) with below | notBelow
    · exact .inl (by simpa only [Nat.succ_mul] using Nat.mul_le_mul_right denominator below)
    · rcases Nat.lt_or_ge (numerator / denominator + 1) other with above | notAbove
      · refine .inr (.inr (.inr ?_))
        have scaled := Nat.mul_le_mul_right denominator above
        rw [Nat.succ_mul, Nat.succ_mul] at scaled
        omega
      · omega
  have successor := Nat.succ_mul (numerator / denominator) denominator
  unfold nearestEven at different tie ⊢
  dsimp only at different tie ⊢
  by_cases low : 2 * (numerator % denominator) < denominator
  · simp only [low, if_true] at different tie
    rcases side with side | rfl | rfl | side
    · omega
    · exact absurd rfl different
    · rw [Nat.succ_mul] at tie
      omega
    · omega
  · by_cases high : denominator < 2 * (numerator % denominator)
    · simp only [low, high, if_true, if_false] at different tie
      rw [Nat.succ_mul] at tie
      rcases side with side | rfl | rfl | side
      · omega
      · omega
      · exact absurd rfl different
      · omega
    · simp only [low, high, if_false]
      omega

/-! ## The significand of a quotient -/

/-- The significand that `ofQuotient` gives a quotient, before a carry. -/
def roundedSignificand (numerator denominator : Nat) : Nat :=
  nearestEven numerator (denominator <<< droppedBits numerator denominator)

theorem shiftLeft_mul (count shift factor : Nat) :
    (count <<< shift) * factor = count * (factor <<< shift) := by
  rw [Nat.shiftLeft_eq, Nat.shiftLeft_eq]
  ring

theorem shiftLeft_mono (count : Nat) {shift shift' : Nat} (le : shift ≤ shift') :
    count <<< shift ≤ count <<< shift' := by
  rw [Nat.shiftLeft_eq, Nat.shiftLeft_eq]
  exact Nat.mul_le_mul_left _ (Nat.pow_le_pow_right (by omega) le)

theorem shifted_pos {denominator : Nat} (positive : 0 < denominator) (exponent : Nat) :
    0 < denominator <<< exponent := by
  rw [Nat.shiftLeft_eq]
  exact Nat.mul_pos positive (Nat.two_pow_pos _)

/-- A quotient without its dropped bits is below `2 ^ 53`, and has a leading bit
unless none were dropped. -/
theorem quotient_bounds (numerator denominator : Nat) :
    numerator / (denominator <<< droppedBits numerator denominator) < 2 ^ 53 ∧
      (2 ^ 52 ≤ numerator / (denominator <<< droppedBits numerator denominator) ∨
        droppedBits numerator denominator = 0) := by
  rw [Nat.shiftLeft_eq, ← Nat.div_div_eq_div_mul]
  have upper : numerator / denominator < 2 ^ ((numerator / denominator).log2 + 1) :=
    Nat.lt_log2_self
  simp only [droppedBits]
  constructor
  · rw [Nat.div_lt_iff_lt_mul (Nat.two_pow_pos _), ← pow_add]
    exact upper.trans_le (Nat.pow_le_pow_right (by omega) (by omega))
  · by_cases none : (numerator / denominator).log2 - 52 = 0
    · exact .inr none
    · refine .inl ((Nat.le_div_iff_mul_le (Nat.two_pow_pos _)).mpr ?_)
      have nonzero : numerator / denominator ≠ 0 := by
        intro zero
        rw [zero] at none
        exact none rfl
      rw [← pow_add, ← Nat.le_log2 nonzero]
      omega

theorem roundedSignificand_bounds (numerator denominator : Nat) :
    roundedSignificand numerator denominator ≤ 2 ^ 53 ∧
      (2 ^ 52 ≤ roundedSignificand numerator denominator ∨
        droppedBits numerator denominator = 0) := by
  obtain ⟨below, leading⟩ := quotient_bounds numerator denominator
  rcases nearestEven_cases numerator (denominator <<< droppedBits numerator denominator) with
    ⟨down, -⟩ | ⟨up, -⟩
  · rw [roundedSignificand, down]
    omega
  · rw [roundedSignificand, up]
    omega

/-! ## What a scaled significand amounts to -/

theorem ofScaled_cases {significand exponent : Nat} (negative : Bool)
    (below : significand ≤ 2 ^ 53) (leading : 2 ^ 52 ≤ significand ∨ exponent = 0) :
    ((ofScaled negative significand exponent).isFinite = true ∧
        (ofScaled negative significand exponent).magnitude = significand <<< exponent ∧
        (if significand = 2 ^ 53 then exponent + 1 else exponent) ≤ 2045) ∨
      (ofScaled negative significand exponent = .infinity negative ∧
        2045 < if significand = 2 ^ 53 then exponent + 1 else exponent) := by
  simp only [ofScaled]
  simp only [significandLimit_eq, leadingBit_eq, canonical_iff]
  by_cases carried : significand = 2 ^ 53
  · simp only [carried, if_true]
    split
    · rename_i canonical
      refine .inl ⟨rfl, ?_, canonical.2.2⟩
      simp only [magnitude, Nat.shiftLeft_eq, pow_succ]
      ring
    · exact .inr ⟨rfl, by omega⟩
  · simp only [carried, if_false]
    split
    · rename_i canonical
      exact .inl ⟨rfl, rfl, canonical.2.2⟩
    · exact .inr ⟨rfl, by omega⟩

@[simp]
theorem negative_ofScaled (negative : Bool) (significand exponent : Nat) :
    (ofScaled negative significand exponent).negative = negative := by
  simp only [ofScaled]
  split <;> split <;> rfl

/-! ## What a quotient rounds to -/

@[simp]
theorem negative_ofQuotient (negative : Bool) (numerator denominator : Nat) :
    (ofQuotient negative numerator denominator).negative = negative :=
  negative_ofScaled _ _ _

/-- The magnitude of a finite rounded quotient. -/
theorem magnitude_ofQuotient {negative : Bool} {numerator denominator : Nat}
    (finite : (ofQuotient negative numerator denominator).isFinite = true) :
    (ofQuotient negative numerator denominator).magnitude =
      roundedSignificand numerator denominator <<< droppedBits numerator denominator := by
  obtain ⟨below, leading⟩ := roundedSignificand_bounds numerator denominator
  rcases ofScaled_cases negative below leading with ⟨-, same, -⟩ | ⟨infinite, -⟩
  · exact same
  · have absurdly : (ofScaled negative (roundedSignificand numerator denominator)
        (droppedBits numerator denominator)).isFinite = true := finite
    rw [infinite] at absurdly
    cases absurdly

/-- A rounded quotient that is not finite is the infinity of its sign. -/
theorem ofQuotient_eq_infinity {negative : Bool} {numerator denominator : Nat}
    (infinite : (ofQuotient negative numerator denominator).isFinite = false) :
    ofQuotient negative numerator denominator = .infinity negative := by
  obtain ⟨below, leading⟩ := roundedSignificand_bounds numerator denominator
  rcases ofScaled_cases negative below leading with ⟨finite, -, -⟩ | ⟨same, -⟩
  · have absurdly : (ofQuotient negative numerator denominator).isFinite = true := finite
    rw [infinite] at absurdly
    cases absurdly
  · exact same

/-- The sign of a rounded quotient is free: it changes nothing else. -/
theorem neg_ofQuotient (negative : Bool) (numerator denominator : Nat) :
    -ofQuotient negative numerator denominator = ofQuotient (!negative) numerator denominator := by
  show neg (ofScaled negative _ _) = ofScaled (!negative) _ _
  simp only [ofScaled]
  split <;> split <;> rfl

/-- What is left of a quotient without its dropped bits makes a number if it is canonical. -/
theorem ofQuotient_of_kept {negative : Bool} {significand exponent numerator denominator : Nat}
    (canonical : Canonical significand exponent)
    (dropped : droppedBits numerator denominator = exponent)
    (kept : nearestEven numerator (denominator <<< exponent) = significand) :
    ofQuotient negative numerator denominator =
      .finite negative significand exponent canonical := by
  have notCarried : significand ≠ significandLimit := Nat.ne_of_lt canonical.1
  unfold ofQuotient
  rw [dropped]
  dsimp only
  rw [kept]
  simp only [ofScaled, notCarried, if_false, canonical, dif_pos]

/-- A magnitude written as a quotient rounds to itself. -/
theorem ofQuotient_exact {negative : Bool} {significand exponent denominator : Nat}
    (canonical : Canonical significand exponent) (positive : 0 < denominator) :
    ofQuotient negative ((significand <<< exponent) * denominator) denominator =
      .finite negative significand exponent canonical := by
  refine ofQuotient_of_kept canonical ?_ ?_
  · rw [droppedBits, Nat.mul_div_cancel _ positive, exponent_eq_log2 canonical]
  · rw [shiftLeft_mul, nearestEven_mul (shifted_pos positive exponent)]

/-- A quotient that is above a magnitude by less than half of its last bit is rounded to it. -/
theorem ofQuotient_above {negative : Bool} {significand exponent more denominator : Nat}
    (canonical : Canonical significand exponent) (little : 2 * more < denominator <<< exponent) :
    ofQuotient negative ((significand <<< exponent) * denominator + more) denominator =
      .finite negative significand exponent canonical := by
  obtain ⟨below, leading, -⟩ := canonical_iff.mp canonical
  have positive : 0 < denominator := by
    refine Nat.pos_of_ne_zero fun none => ?_
    rw [none, Nat.zero_shiftLeft] at little
    exact Nat.not_lt_zero _ little
  have unitPositive := shifted_pos positive exponent
  refine ofQuotient_of_kept canonical ?_ ?_
  · have whole : ((significand <<< exponent) * denominator + more) / denominator =
        significand <<< exponent + more / denominator := by
      rw [Nat.add_comm, Nat.add_mul_div_right _ _ positive, Nat.add_comm]
    have few : more / denominator < 2 ^ exponent := by
      rw [Nat.shiftLeft_eq] at little
      rw [Nat.div_lt_iff_lt_mul positive, Nat.mul_comm]
      omega
    rw [droppedBits, whole]
    rcases leading with full | rfl
    · have low : 2 ^ (52 + exponent) ≤ significand <<< exponent + more / denominator := by
        rw [Nat.shiftLeft_eq, pow_add]
        exact le_add_of_le_left (Nat.mul_le_mul_right _ full)
      have high : significand <<< exponent + more / denominator < 2 ^ (52 + exponent + 1) := by
        have room := Nat.mul_le_mul_right (2 ^ exponent) (Nat.succ_le_of_lt below)
        rw [Nat.succ_mul] at room
        rw [Nat.shiftLeft_eq, show 52 + exponent + 1 = 53 + exponent by omega, pow_add]
        omega
      have nonzero : significand <<< exponent + more / denominator ≠ 0 :=
        ((Nat.two_pow_pos _).trans_le low).ne'
      rw [(Nat.log2_eq_iff nonzero).mpr ⟨low, high⟩]
      omega
    · have none : more / denominator = 0 := Nat.lt_one_iff.mp few
      rw [none, Nat.add_zero, exponent_eq_log2 canonical]
  · have split : (significand <<< exponent) * denominator + more =
        more + denominator <<< exponent * significand := by
      rw [shiftLeft_mul]
      ring
    have quotient : ((significand <<< exponent) * denominator + more) / denominator <<< exponent =
        significand := by
      rw [split, Nat.add_mul_div_left _ _ unitPositive, Nat.div_eq_of_lt (by omega), Nat.zero_add]
    have remainder : ((significand <<< exponent) * denominator + more) % denominator <<< exponent =
        more := by
      rw [split, Nat.add_mul_mod_self_left, Nat.mod_eq_of_lt (by omega)]
    simp only [nearestEven, quotient, remainder, little, if_true]

/-- Every finite number is the rounding of its own magnitude. -/
theorem ofQuotient_magnitude {x : Binary64} (finite : x.isFinite = true) :
    ofQuotient x.negative x.magnitude 1 = x := by
  match x, finite with
  | .finite negative significand exponent canonical, _ =>
    have exact : ofQuotient negative _ 1 = _ := ofQuotient_exact canonical Nat.one_pos
    rwa [Nat.mul_one] at exact

/-! ## Overflow -/

/-- Halfway between the largest finite number and the power of two above it, in
units: `2 ^ 1024 - 2 ^ 970` times the units in one. -/
def overflowCount : Nat :=
  (2 ^ 54 - 1) <<< 2044

theorem overflowCount_le {bits shift : Nat} (same : bits + shift = 54 + 2044) :
    overflowCount ≤ 2 ^ bits <<< shift := by
  rw [overflowCount, Nat.shiftLeft_eq, Nat.shiftLeft_eq, ← Nat.pow_add, same, Nat.pow_add]
  exact Nat.mul_le_mul_right _ (Nat.sub_le _ _)

/-- The exponent that a quotient gets, with the carry of its significand. -/
def roundedExponent (numerator denominator : Nat) : Nat :=
  if roundedSignificand numerator denominator = 2 ^ 53 then droppedBits numerator denominator + 1
  else droppedBits numerator denominator

theorem isFinite_ofQuotient_iff_exponent (negative : Bool) (numerator denominator : Nat) :
    (ofQuotient negative numerator denominator).isFinite = true ↔
      roundedExponent numerator denominator ≤ 2045 := by
  obtain ⟨below, leading⟩ := roundedSignificand_bounds numerator denominator
  rcases ofScaled_cases negative below leading with ⟨finite, -, small⟩ | ⟨infinite, large⟩
  · exact iff_of_true finite small
  · have same : ofQuotient negative numerator denominator = .infinity negative := infinite
    rw [same]
    exact iff_of_false Bool.false_ne_true (Nat.not_le.mpr large)

/-- A quotient that is odd without its dropped bits rounds up from halfway. -/
theorem roundedSignificand_odd {numerator denominator : Nat}
    (odd : numerator / (denominator <<< droppedBits numerator denominator) % 2 = 1)
    (half : denominator <<< droppedBits numerator denominator ≤
      2 * (numerator % (denominator <<< droppedBits numerator denominator))) :
    roundedSignificand numerator denominator =
      numerator / (denominator <<< droppedBits numerator denominator) + 1 := by
  simp only [roundedSignificand, nearestEven]
  split
  · omega
  · split <;> omega

/-- Where as many bits are dropped as the largest exponent says, the carry decides
whether the rounded exponent passes it. -/
theorem carry_le_iff {numerator quotient rest unit significand : Nat} (below : quotient < 2 ^ 53)
    (divided : quotient * (2 * unit) + rest = numerator) (remainder : rest < 2 * unit)
    (rounded : significand = quotient ∧ 2 * rest ≤ 2 * unit ∨
      significand = quotient + 1 ∧ 2 * unit ≤ 2 * rest)
    (carries : quotient % 2 = 1 → 2 * unit ≤ 2 * rest → significand = quotient + 1) :
    (if significand = 2 ^ 53 then 2045 + 1 else 2045) ≤ 2045 ↔ numerator < (2 ^ 54 - 1) * unit := by
  by_cases top : quotient = 2 ^ 53 - 1
  · subst top
    by_cases half : unit ≤ rest
    · have carried := carries (by decide) (by omega)
      refine iff_of_false ?_ (by omega)
      rw [if_pos (by omega)]
      omega
    · refine iff_of_true ?_ (by omega)
      rw [if_neg (by omega)]
  · have lower : (quotient + 1) * (2 * unit) ≤ (2 ^ 53 - 1) * (2 * unit) :=
      Nat.mul_le_mul_right _ (by omega)
    rw [Nat.succ_mul] at lower
    refine iff_of_true ?_ (by omega)
    rw [if_neg (by omega)]

/-- The exponent of a quotient is at most the largest one exactly when the
quotient is below the overflow count.  Where just as many bits are dropped, all
hangs on the carry. -/
theorem roundedExponent_le_iff {numerator denominator : Nat} (positive : 0 < denominator) :
    roundedExponent numerator denominator ≤ 2045 ↔ numerator < overflowCount * denominator := by
  obtain ⟨below, leading⟩ := quotient_bounds numerator denominator
  have divided :=
    Nat.div_add_mod' numerator (denominator <<< droppedBits numerator denominator)
  have remainder :=
    Nat.mod_lt numerator (shifted_pos positive (droppedBits numerator denominator))
  have rounded : (roundedSignificand numerator denominator = _ ∧ _) ∨
      (roundedSignificand numerator denominator = _ ∧ _) :=
    nearestEven_cases numerator (denominator <<< droppedBits numerator denominator)
  have carries := @roundedSignificand_odd numerator denominator
  rw [overflowCount, shiftLeft_mul, roundedExponent]
  generalize roundedSignificand numerator denominator = significand at *
  generalize droppedBits numerator denominator = exponent at *
  generalize numerator / (denominator <<< exponent) = quotient at *
  generalize numerator % (denominator <<< exponent) = rest at *
  have scaledQuotient : quotient * (denominator <<< exponent) + denominator <<< exponent ≤
      2 ^ 53 * (denominator <<< exponent) := by
    rw [← Nat.succ_mul]
    exact Nat.mul_le_mul_right _ below
  rcases Nat.lt_trichotomy exponent 2045 with small | same | large
  · have smaller : denominator <<< exponent ≤ denominator <<< 2044 :=
      shiftLeft_mono denominator (by omega)
    refine iff_of_true ?_ (by omega)
    split <;> omega
  · subst same
    have doubled : denominator <<< 2045 = 2 * (denominator <<< 2044) :=
      Nat.shiftLeft_succ denominator 2044
    rw [doubled] at divided remainder carries rounded
    exact carry_le_iff below divided remainder rounded carries
  · have larger : denominator <<< 2046 ≤ denominator <<< exponent :=
      shiftLeft_mono denominator large
    have doubled : denominator <<< 2045 = 2 * (denominator <<< 2044) :=
      Nat.shiftLeft_succ denominator 2044
    have quadrupled : denominator <<< 2046 = 2 * (denominator <<< 2045) :=
      Nat.shiftLeft_succ denominator 2045
    have atLeast : 2 ^ 52 * (denominator <<< exponent) ≤ quotient * (denominator <<< exponent) :=
      Nat.mul_le_mul_right _ (leading.resolve_right (by omega))
    refine iff_of_false ?_ (by omega)
    split <;> omega

/-- A quotient rounds to a finite number exactly when it is below the overflow
count. -/
theorem isFinite_ofQuotient {negative : Bool} {numerator denominator : Nat}
    (positive : 0 < denominator) :
    (ofQuotient negative numerator denominator).isFinite = true ↔
      numerator < overflowCount * denominator :=
  (isFinite_ofQuotient_iff_exponent _ _ _).trans (roundedExponent_le_iff positive)

/-! ## Nothing is nearer -/

/-- A magnitude is a multiple of the last bit that an exponent leaves, or it is
too short to have that exponent. -/
theorem magnitude_grid (y : Binary64) (exponent : Nat) :
    (∃ multiple, y.magnitude = multiple <<< exponent) ∨
      (exponent ≠ 0 ∧ y.magnitude < 2 ^ 52 <<< exponent) := by
  match y with
  | .finite _ significand own canonical =>
    obtain ⟨below, -, -⟩ := canonical_iff.mp canonical
    rcases Nat.lt_or_ge own exponent with short | long
    · refine .inr ⟨by omega, ?_⟩
      calc significand <<< own = significand * 2 ^ own := Nat.shiftLeft_eq _ _
        _ < 2 ^ 53 * 2 ^ own := Nat.mul_lt_mul_of_pos_right below (Nat.two_pow_pos _)
        _ = 2 ^ 52 * 2 ^ (own + 1) := by ring
        _ ≤ 2 ^ 52 * 2 ^ exponent := Nat.mul_le_mul_left _ (Nat.pow_le_pow_right (by omega) short)
        _ = 2 ^ 52 <<< exponent := (Nat.shiftLeft_eq _ _).symm
    · refine .inl ⟨significand <<< (own - exponent), ?_⟩
      rw [← Nat.shiftLeft_add, Nat.sub_add_cancel long]
      rfl
  | .infinity _ => exact .inl ⟨0, (Nat.zero_shiftLeft _).symm⟩
  | .nan _ => exact .inl ⟨0, (Nat.zero_shiftLeft _).symm⟩

/-- The distance of a count of units from a quotient, scaled by the denominator. -/
def offset (count : Int) (numerator denominator : Nat) : Nat :=
  (count * denominator - numerator : Int).natAbs

/-- Where the last bit that a significand can hold is larger than a unit, the
quotient is at least as large as the numbers with a finer grid. -/
theorem leading_le_numerator {numerator denominator : Nat} (positive : 0 < denominator)
    (dropped : droppedBits numerator denominator ≠ 0) :
    2 ^ 52 * (denominator <<< droppedBits numerator denominator) ≤ numerator := by
  have leading := (quotient_bounds numerator denominator).2.resolve_right dropped
  exact (Nat.le_div_iff_mul_le (shifted_pos positive _)).mp leading

/-- No magnitude is nearer to a quotient than the one it rounds to, and where
another is as near the significand before a carry is even. -/
theorem roundedSignificand_nearest {numerator denominator : Nat} (positive : 0 < denominator)
    (y : Binary64) :
    offset (roundedSignificand numerator denominator <<< droppedBits numerator denominator : Nat)
        numerator denominator ≤ offset y.magnitude numerator denominator ∧
      (offset (roundedSignificand numerator denominator <<< droppedBits numerator denominator : Nat)
          numerator denominator = offset y.magnitude numerator denominator →
        y.magnitude ≠
            roundedSignificand numerator denominator <<< droppedBits numerator denominator →
        roundedSignificand numerator denominator % 2 = 0) := by
  have unitPositive := shifted_pos positive (droppedBits numerator denominator)
  have scaled : ∀ count : Nat,
      offset (count <<< droppedBits numerator denominator : Nat) numerator denominator =
        ((count * (denominator <<< droppedBits numerator denominator) : Nat) - numerator :
          Int).natAbs := by
    intro count
    rw [offset, ← shiftLeft_mul]
    push_cast
    rfl
  rcases magnitude_grid y (droppedBits numerator denominator) with
    ⟨multiple, onGrid⟩ | ⟨dropped, short⟩
  · rw [onGrid, scaled, scaled]
    refine ⟨nearestEven_nearest unitPositive multiple, ?_⟩
    intro tie different
    refine nearestEven_even unitPositive ?_ tie
    rintro rfl
    exact different rfl
  · -- A number off the grid is below its leading point, and so is farther than that point.
    have leading := leading_le_numerator positive dropped
    have nearest : offset (roundedSignificand numerator denominator <<<
        droppedBits numerator denominator : Nat) numerator denominator ≤ _ :=
      (scaled _).trans_le (nearestEven_nearest unitPositive (2 ^ 52))
    have below : y.magnitude * denominator <
        2 ^ 52 * (denominator <<< droppedBits numerator denominator) := by
      rw [← shiftLeft_mul]
      exact Nat.mul_lt_mul_of_pos_right short positive
    have farther : ((2 ^ 52 * (denominator <<< droppedBits numerator denominator) : Nat) -
        numerator : Int).natAbs < offset y.magnitude numerator denominator := by
      rw [offset, ← Int.natCast_mul]
      omega
    exact ⟨by omega, fun tie => by omega⟩

/-- Every magnitude stays below the overflow count. -/
theorem magnitude_lt_overflowCount {y : Binary64} (finite : y.isFinite = true) :
    y.magnitude < overflowCount := by
  have rounded := @isFinite_ofQuotient y.negative y.magnitude 1 Nat.one_pos
  rw [ofQuotient_magnitude finite, Nat.mul_one] at rounded
  exact rounded.mp finite

/-- **A quotient no larger than a finite number rounds to nothing larger.** -/
theorem ofQuotient_le {negative : Bool} {numerator denominator : Nat} {y : Binary64}
    (positive : 0 < denominator) (finite : y.isFinite = true)
    (le : numerator ≤ y.magnitude * denominator) :
    (ofQuotient negative numerator denominator).isFinite = true ∧
      (ofQuotient negative numerator denominator).magnitude ≤ y.magnitude := by
  have inside : (ofQuotient negative numerator denominator).isFinite = true :=
    (isFinite_ofQuotient positive).mpr
      (le.trans_lt (Nat.mul_lt_mul_of_pos_right (magnitude_lt_overflowCount finite) positive))
  refine ⟨inside, ?_⟩
  obtain ⟨nearest, -⟩ := @roundedSignificand_nearest numerator _ positive y
  rw [magnitude_ofQuotient inside]
  by_contra above
  have farther := Nat.mul_lt_mul_of_pos_right (Nat.not_le.mp above) positive
  simp only [offset, ← Int.natCast_mul] at nearest
  omega

end Quadratics.Binary64
