import Quadratics.Proofs.Solution.ExactRoots
import Quadratics.Proofs.Solution.RootErrors

/-!
# When a quadratic is too large

The outcome of a quadratic is too large only when something is: one of the parts of its
discriminant, the discriminant, or a part of an exact root (`solve_tooLarge_explained`).
The two parts are compared with the overflow bound exactly, since they are rounded once.
The discriminant and the roots are computed from rounded numbers, so they are within a few
roundings of the bound, and `borderline` shows that they need not reach it.

For two real roots the computed root of the discriminant may be off by more than a few
roundings, where the discriminant is small beside its parts.  But it counts as zero where it
is very small, and otherwise the linear coefficient dominates the numerator
(`le_of_real`).  The condition on the leading coefficient leaves out one more way to
overflow: `4a` is computed before it meets the constant.
-/

namespace Quadratics

set_option autoImplicit false

open Binary64 (Alike rounded halfUnit overflowBound NearRoot)

/-! ## Estimates -/

section Estimates

/-- What the computed root of a discriminant satisfies: `linear` is the magnitude of the
linear coefficient and `exact` the exact root. -/
structure RootEstimate (linear exact root half : ℝ) : Prop where
  linearNonneg : 0 ≤ linear
  exactNonneg : 0 ≤ exact
  halfNonneg : 0 ≤ half
  square : root ^ 2 ≤ exact ^ 2 + 3 * (2 * linear ^ 2 + exact ^ 2) / 2 ^ 51 + 4 * half

variable {linear exact root half width : ℝ} (estimate : RootEstimate linear exact root half)
  (widthPositive : 0 < width) (tiny : 4 * half ≤ width ^ 2 / 2 ^ 100)
include estimate widthPositive tiny

/-- The larger of two parts is nearly as large as the computed root. -/
theorem RootEstimate.le_of_conjugate (reach : width ≤ root) :
    (1 - 1 / 2 ^ 29) * width ≤ linear ∨ (1 - 1 / 2 ^ 29) * width ≤ exact := by
  by_contra short
  obtain ⟨linearShort, exactShort⟩ := not_or.mp short
  have linearSquare := pow_le_pow_left₀ estimate.linearNonneg (not_le.mp linearShort).le 2
  have exactSquare := pow_le_pow_left₀ estimate.exactNonneg (not_le.mp exactShort).le 2
  have reached := pow_le_pow_left₀ widthPositive.le reach 2
  have positive : 0 < width ^ 2 := by positivity
  linarith [estimate.square]

/-- The sum of two parts is nearly as large as the computed sum, if the linear part does not
hide the other one. -/
theorem RootEstimate.le_of_real (small : half ≤ width / 2 ^ 100)
    (apart : linear ^ 2 ≤ 2 ^ 40 * (exact ^ 2 + 6 * half))
    (reach : width ≤ (linear + root) + (linear + root) / 2 ^ 53 + half) :
    (1 - 1 / 2 ^ 29) * width ≤ linear + exact := by
  have linearNonneg := estimate.linearNonneg
  have exactNonneg := estimate.exactNonneg
  have positive : 0 < width ^ 2 := by positivity
  have product := mul_nonneg exactNonneg widthPositive.le
  by_contra short
  rw [not_le] at short
  -- The computed root has to make up for what is missing.
  have excess : exact + (1 / 2 ^ 29 - 1 / 2 ^ 51) * width ≤ root := by linarith
  have excessSquare := pow_le_pow_left₀
    (add_nonneg exactNonneg (mul_nonneg (by norm_num) widthPositive.le)) excess 2
  have visible : linear ≤ 2 ^ 20 * exact + width / 2 ^ 29 := by
    refine le_of_sq_le_sq ?_ (by positivity)
    linarith
  have linearSquare : linear * linear ≤ (2 ^ 20 * exact + width / 2 ^ 29) * width :=
    mul_le_mul visible (by linarith) linearNonneg (by positivity)
  have exactSquare : exact * exact ≤ exact * width :=
    mul_le_mul_of_nonneg_left (by linarith) exactNonneg
  linarith [estimate.square]

end Estimates

namespace Coefficients

variable {coefficients : Coefficients} {settings : Settings} {discriminant : Binary64}

/-! ## Roots far out -/

/-- A part of an exact root reaches so far out. -/
def HasRootBeyond (coefficients : Coefficients) (bound : ℝ) : Prop :=
  ∃ z : ℂ, coefficients.IsRoot z ∧ (bound ≤ |z.re| ∨ bound ≤ |z.im|)

section Nonzero

variable (nonzero : coefficients.quadratic.toRat ≠ 0) {bound : ℝ}
include nonzero

theorem denominator_pos : 0 < 2 * |(coefficients.quadratic.toRat : ℝ)| :=
  mul_pos two_pos (abs_pos.mpr (Rat.cast_ne_zero.mpr nonzero))

theorem hasRootBeyond_of_real (nonneg : 0 ≤ coefficients.exactDiscriminant)
    (reach : 2 * |(coefficients.quadratic.toRat : ℝ)| * bound ≤
      |(coefficients.linear.toRat : ℝ)| + √|(coefficients.exactDiscriminant : ℝ)|) :
    coefficients.HasRootBeyond bound := by
  obtain ⟨x, root, magnitude⟩ := exists_real_root nonzero nonneg
  have nonnegCast : (0 : ℝ) ≤ (coefficients.exactDiscriminant : ℝ) := Rat.cast_nonneg.mpr nonneg
  rw [abs_of_nonneg nonnegCast, ← magnitude] at reach
  refine ⟨x, root, .inl ?_⟩
  rw [Complex.ofReal_re]
  exact le_of_mul_le_mul_left reach (denominator_pos nonzero)

theorem hasRootBeyond_of_conjugate (nonpos : coefficients.exactDiscriminant ≤ 0)
    (reach : 2 * |(coefficients.quadratic.toRat : ℝ)| * bound ≤
        |(coefficients.linear.toRat : ℝ)| ∨
      2 * |(coefficients.quadratic.toRat : ℝ)| * bound ≤
        √|(coefficients.exactDiscriminant : ℝ)|) :
    coefficients.HasRootBeyond bound := by
  obtain ⟨z, root, real, imaginary⟩ := exists_conjugate_root nonzero nonpos
  have nonposCast : (coefficients.exactDiscriminant : ℝ) ≤ 0 := Rat.cast_nonpos.mpr nonpos
  rw [abs_of_nonpos nonposCast, ← real, ← imaginary] at reach
  exact ⟨z, root, reach.imp (le_of_mul_le_mul_left · (denominator_pos nonzero))
    (le_of_mul_le_mul_left · (denominator_pos nonzero))⟩

/-- A linear coefficient that is large enough by itself makes a root large. -/
theorem hasRootBeyond_of_linear (reach : 2 * |(coefficients.quadratic.toRat : ℝ)| * bound ≤
    |(coefficients.linear.toRat : ℝ)|) : coefficients.HasRootBeyond bound := by
  rcases le_total 0 coefficients.exactDiscriminant with sign | sign
  · exact hasRootBeyond_of_real nonzero sign
      (reach.trans (le_add_of_nonneg_right (Real.sqrt_nonneg _)))
  · exact hasRootBeyond_of_conjugate nonzero sign (.inl reach)

end Nonzero

/-! ## Numerators -/

/-- How large a numerator is at which the quotient overflows. -/
def reach (coefficients : Coefficients) : ℚ :=
  2 * |coefficients.quadratic.toRat| * overflowBound

theorem reach_scaled (coefficients : Coefficients) (factor : ℝ) :
    2 * |(coefficients.quadratic.toRat : ℝ)| * (factor * (overflowBound : ℝ)) =
      factor * (coefficients.reach : ℝ) := by
  rw [reach]
  push_cast
  ring

section Found

variable (found : coefficients.discriminant? = some discriminant)
include found

theorem exactSquare_lt : coefficients.exactSquare < overflowBound := by
  obtain ⟨-, squared, -, -⟩ := discriminant?_eq_some found
  have inside := (linearSquared_alike squared).isFinite_iff.mp squared
  rwa [abs_of_nonneg coefficients.exactSquare_nonneg] at inside

theorem exactProduct_lt : |coefficients.exactProduct| < overflowBound := by
  obtain ⟨-, -, product, -⟩ := discriminant?_eq_some found
  exact (fourfoldProduct_alike product).isFinite_iff.mp product

/-- **The square of the computed root is near the exact discriminant**, whatever its sign. -/
theorem rootSquare_le {x : Binary64} (signed : x = discriminant ∨ x = -discriminant)
    (positive : 0 < x.toRat) :
    x.sqrt.toRat ^ 2 ≤ |coefficients.exactDiscriminant| + 3 * (2 * coefficients.exactSquare +
      |coefficients.exactDiscriminant|) / 2 ^ 51 + 4 * halfUnit := by
  obtain ⟨difference, squared, product, -⟩ := discriminant?_eq_some found
  have discriminantFinite := (discriminated found).finite
  have error := difference_near difference squared product
  have total : coefficients.exactTotal ≤
      2 * coefficients.exactSquare + |coefficients.exactDiscriminant| := by
    have split := abs_sub coefficients.exactSquare coefficients.exactDiscriminant
    rw [exactDiscriminant, sub_sub_cancel, ← exactDiscriminant,
      abs_of_nonneg coefficients.exactSquare_nonneg] at split
    rw [exactTotal]
    linarith
  rcases signed with rfl | rfl
  · have isDifference := (toRat_discriminant found).resolve_left positive.ne'
    rw [← isDifference] at error
    have near := rootSquare_near coefficients.abs_exactDiscriminant_le error
      (Binary64.nearRoot_sqrt discriminantFinite positive).abs_sub_le
    linarith [(abs_le.mp near).2, le_abs_self coefficients.exactDiscriminant]
  · have opposite : discriminant.toRat ≠ 0 := fun zero => by
      rw [Binary64.toRat_neg, zero, neg_zero] at positive
      exact lt_irrefl _ positive
    have isDifference := (toRat_discriminant found).resolve_left opposite
    rw [← isDifference, abs_sub_comm, ← neg_sub_neg, ← Binary64.toRat_neg] at error
    have bound := coefficients.abs_exactDiscriminant_le
    rw [← abs_neg] at bound
    have near := rootSquare_near bound error (Binary64.nearRoot_sqrt
      ((Binary64.isFinite_neg _).trans discriminantFinite) positive).abs_sub_le
    linarith [(abs_le.mp near).2, neg_le_abs coefficients.exactDiscriminant]

/-- **The numerators of two real roots are finite.** -/
theorem isFinite_numerator {x root : Binary64} (signed : x = discriminant ∨ x = -discriminant)
    (positive : 0 < x.toRat) (finite : root.isFinite = true)
    (same : |root.toRat| = |x.sqrt.toRat|) : (-coefficients.linear + root).isFinite = true := by
  have linear := (discriminated found).linear
  have square := rootSquare_le found signed positive
  have squareSmall := exactSquare_lt found
  have productSmall := exactProduct_lt found
  have discriminantSmall := abs_sub coefficients.exactSquare coefficients.exactProduct
  rw [← exactDiscriminant, abs_of_nonneg coefficients.exactSquare_nonneg] at discriminantSmall
  have large : (2 : ℚ) ^ 10 ≤ overflowBound := Binary64.two_pow_le_overflowBound (by decide)
  have halfSmall := Binary64.halfUnit_lt_one
  rw [(Binary64.add_alike ((Binary64.isFinite_neg _).trans linear) finite).isFinite_iff]
  have triangle := abs_add_le (-coefficients.linear).toRat root.toRat
  rw [Binary64.toRat_neg, abs_neg, same] at triangle
  rw [Binary64.toRat_neg]
  refine triangle.trans_lt (lt_of_pow_lt_pow_left₀ 2 (by linarith) ?_)
  have linearSquare : |coefficients.linear.toRat| ^ 2 = coefficients.exactSquare := by
    rw [sq_abs, sq, exactSquare]
  have sum : (|coefficients.linear.toRat| + |x.sqrt.toRat|) ^ 2 ≤
      2 * (coefficients.exactSquare + x.sqrt.toRat ^ 2) := by
    rw [← linearSquare, ← sq_abs x.sqrt.toRat]
    linarith [sq_nonneg (|coefficients.linear.toRat| - |x.sqrt.toRat|),
      sub_sq |coefficients.linear.toRat| |x.sqrt.toRat|,
      add_sq |coefficients.linear.toRat| |x.sqrt.toRat|]
  calc (|coefficients.linear.toRat| + |x.sqrt.toRat|) ^ 2
      ≤ 2 * (coefficients.exactSquare + x.sqrt.toRat ^ 2) := sum
    _ ≤ 2 ^ 9 * overflowBound := by linarith
    _ < overflowBound * overflowBound := by
        refine mul_lt_mul_of_pos_right ?_ Binary64.overflowBound_pos
        linarith
    _ = overflowBound ^ 2 := (sq _).symm

theorem rootEstimate {x : Binary64} (signed : x = discriminant ∨ x = -discriminant)
    (positive : 0 < x.toRat) :
    RootEstimate |(coefficients.linear.toRat : ℝ)| √|(coefficients.exactDiscriminant : ℝ)|
      (x.sqrt.toRat : ℝ) (halfUnit : ℝ) := by
  refine ⟨abs_nonneg _, Real.sqrt_nonneg _, Rat.cast_nonneg.mpr Binary64.halfUnit_pos.le, ?_⟩
  have square := rootSquare_le found signed positive
  rw [exactSquare, ← sq] at square
  rw [Real.sq_sqrt (abs_nonneg _), sq_abs]
  exact_mod_cast square

variable (nonzero : ¬ coefficients.quadratic.Vanishes)
include nonzero

/-- **A numerator whose quotient overflows is as large as the denominator allows.** -/
theorem reach_le_of_infinite {numerator : Binary64} (finite : numerator.isFinite = true)
    (infinite : (numerator / (2 * coefficients.quadratic)).isFinite = false) :
    coefficients.reach ≤ |numerator.toRat| := by
  have isDiscriminated := discriminated found
  have positive : 0 < 2 * |coefficients.quadratic.toRat| := by
    refine mul_pos two_pos (abs_pos.mpr fun zero => nonzero ?_)
    exact (Binary64.vanishes_iff_toRat isDiscriminated.quadratic).mpr zero
  rw [(Binary64.div_alike finite isDiscriminated.denominator
    (isDiscriminated.denominator_nonzero nonzero)).isFinite_eq_false_iff,
    isDiscriminated.toRat_denominator, abs_div, abs_mul, abs_two, le_div_iff₀ positive] at infinite
  rw [reach]
  linarith

/-- Half of the least positive number is nothing beside it. -/
theorem halfUnit_le_reach :
    (0 : ℝ) < coefficients.reach ∧ 4 * (halfUnit : ℝ) ≤ (coefficients.reach : ℝ) ^ 2 / 2 ^ 100 ∧
      (halfUnit : ℝ) ≤ coefficients.reach / 2 ^ 100 := by
  have least := Binary64.two_mul_halfUnit_le_abs (discriminated found).quadratic nonzero
  have product : 1 / 2 ^ 52 ≤ overflowBound * halfUnit := by
    refine (Binary64.two_pow_mul_inverse 1023 52).symm.trans_le ?_
    exact mul_le_mul_of_nonneg_right (Binary64.two_pow_le_overflowBound le_rfl)
      Binary64.halfUnit_pos.le
  have wide : 1 / 2 ^ 50 ≤ coefficients.reach := by
    rw [reach]
    linarith [mul_le_mul_of_nonneg_right least Binary64.overflowBound_pos.le]
  have thin : halfUnit ≤ 1 / 2 ^ 250 :=
    one_div_le_one_div_of_le (by norm_num) (pow_le_pow_right₀ one_le_two (by decide))
  have wideSquare := pow_le_pow_left₀ (by norm_num) wide 2
  norm_num at wide thin wideSquare
  have positive : 0 < coefficients.reach := by linarith
  have tiny : 4 * halfUnit ≤ coefficients.reach ^ 2 / 2 ^ 100 := by linarith
  have small : halfUnit ≤ coefficients.reach / 2 ^ 100 := by linarith
  refine ⟨Rat.cast_pos.mpr positive, ?_, ?_⟩
  · exact_mod_cast Rat.cast_le (K := ℝ) |>.mpr tiny
  · exact_mod_cast Rat.cast_le (K := ℝ) |>.mpr small

/-! ## Formulas that overflow -/

theorem leading_nonzero : coefficients.quadratic.toRat ≠ 0 := fun zero =>
  nonzero ((Binary64.vanishes_iff_toRat (discriminated found).quadratic).mpr zero)

/-- The formula `-b / 2a`. -/
theorem hasRootBeyond_of_single
    (infinite : (-coefficients.linear / (2 * coefficients.quadratic)).isFinite = false) :
    coefficients.HasRootBeyond ((1 - 1 / 2 ^ 29) * (overflowBound : ℝ)) := by
  have finite := (Binary64.isFinite_neg coefficients.linear).trans (discriminated found).linear
  have reached := reach_le_of_infinite found nonzero finite infinite
  obtain ⟨positive, -, -⟩ := halfUnit_le_reach found nonzero
  rw [Binary64.toRat_neg, abs_neg] at reached
  have reachedCast : (coefficients.reach : ℝ) ≤ |(coefficients.linear.toRat : ℝ)| := by
    exact_mod_cast reached
  refine hasRootBeyond_of_linear (leading_nonzero found nonzero) ?_
  rw [reach_scaled]
  linarith

/-- The formulas `(-b ± √D) / 2a`. -/
theorem hasRootBeyond_of_two (positive : 0 < discriminant.toRat) {root : Binary64}
    (signed : root = discriminant.sqrt ∨ root = -discriminant.sqrt)
    (infinite : ((-coefficients.linear + root) / (2 * coefficients.quadratic)).isFinite = false) :
    coefficients.HasRootBeyond ((1 - 1 / 2 ^ 29) * (overflowBound : ℝ)) := by
  have isDiscriminated := discriminated found
  obtain ⟨difference, squared, product, same⟩ := discriminant?_eq_some found
  have near := Binary64.nearRoot_sqrt isDiscriminated.finite positive
  obtain ⟨rootFinite, magnitude⟩ := near.signed signed
  have linearFinite := (Binary64.isFinite_neg coefficients.linear).trans isDiscriminated.linear
  have numeratorFinite := isFinite_numerator found (.inl rfl) positive rootFinite
    (magnitude.trans (abs_of_pos near.positive).symm)
  have disagree : ¬ coefficients.partsAgree = true := by
    intro agree
    rw [if_pos agree] at same
    rw [same, Binary64.toRat_zero] at positive
    exact lt_irrefl _ positive
  have apart := exactSquare_le_of_disagree difference squared product disagree
  have reached : coefficients.reach ≤ (|coefficients.linear.toRat| + discriminant.sqrt.toRat) +
      (|coefficients.linear.toRat| + discriminant.sqrt.toRat) / 2 ^ 53 + halfUnit := by
    have rounding := (Binary64.add_alike linearFinite rootFinite).abs_sub_le numeratorFinite
    have triangle := abs_add_le (-coefficients.linear).toRat root.toRat
    have error := abs_sub_abs_le_abs_sub (-coefficients.linear + root).toRat
      ((-coefficients.linear).toRat + root.toRat)
    rw [Binary64.toRat_neg, abs_neg, magnitude, ← Binary64.toRat_neg] at triangle
    linarith [reach_le_of_infinite found nonzero numeratorFinite infinite]
  have sign : 0 ≤ coefficients.exactDiscriminant := by
    by_contra negative
    exact absurd (toRat_discriminant_nonpos found (not_le.mp negative).le) (not_le.mpr positive)
  obtain ⟨widthPositive, tiny, small⟩ := halfUnit_le_reach found nonzero
  refine hasRootBeyond_of_real (leading_nonzero found nonzero) sign ?_
  rw [reach_scaled]
  refine (rootEstimate found (.inl rfl) positive).le_of_real widthPositive tiny small ?_ ?_
  · rw [Real.sq_sqrt (abs_nonneg _), sq_abs]
    rw [exactSquare, ← sq] at apart
    exact_mod_cast apart
  · exact_mod_cast reached

/-- The formula `√-D / 2a`. -/
theorem hasRootBeyond_of_imaginary (negative : discriminant.toRat < 0)
    (infinite : ((-discriminant).sqrt / (2 * coefficients.quadratic)).isFinite = false) :
    coefficients.HasRootBeyond ((1 - 1 / 2 ^ 29) * (overflowBound : ℝ)) := by
  have positive : 0 < (-discriminant).toRat := by
    rw [Binary64.toRat_neg]
    linarith
  have near := Binary64.nearRoot_sqrt
    ((Binary64.isFinite_neg discriminant).trans (discriminated found).finite) positive
  have reached := reach_le_of_infinite found nonzero near.finite infinite
  rw [abs_of_pos near.positive] at reached
  have sign : coefficients.exactDiscriminant ≤ 0 := by
    by_contra nonneg
    exact absurd (toRat_discriminant_nonneg found (not_le.mp nonneg).le) (not_le.mpr negative)
  obtain ⟨widthPositive, tiny, -⟩ := halfUnit_le_reach found nonzero
  refine hasRootBeyond_of_conjugate (leading_nonzero found nonzero) sign ?_
  rw [reach_scaled]
  exact (rootEstimate found (.inr rfl) positive).le_of_conjugate widthPositive tiny
    (by exact_mod_cast reached)

/-- **Where a formula gives a value that is not finite, an exact root is far out.** -/
theorem hasRootBeyond_of_infinite {value : Binary64}
    (member : value ∈ coefficients.rootFormulas discriminant) (infinite : value.isFinite = false) :
    coefficients.HasRootBeyond ((1 - 1 / 2 ^ 29) * (overflowBound : ℝ)) := by
  have discriminantFinite := (discriminated found).finite
  have zeroFinite := Binary64.vanishes_zero.1
  unfold rootFormulas at member
  dsimp only at member
  split at member
  · rename_i positive
    rw [Binary64.lt_iff_toRat zeroFinite discriminantFinite, Binary64.toRat_zero] at positive
    rcases List.mem_cons.mp member with rfl | member
    · exact hasRootBeyond_of_two found nonzero positive (.inr rfl) infinite
    · rw [List.mem_singleton] at member
      subst member
      exact hasRootBeyond_of_two found nonzero positive (.inl rfl) infinite
  · split at member
    · rename_i negative
      rw [Binary64.lt_iff_toRat discriminantFinite zeroFinite, Binary64.toRat_zero] at negative
      rcases List.mem_cons.mp member with rfl | member
      · exact hasRootBeyond_of_single found nonzero infinite
      · rw [List.mem_singleton] at member
        subst member
        exact hasRootBeyond_of_imaginary found nonzero negative infinite
    · rw [List.mem_singleton] at member
      subst member
      exact hasRootBeyond_of_single found nonzero infinite

end Found

/-! ## The outcome -/

/-- Something that belongs to the polynomial is too large: a part of its discriminant, or,
but for a few roundings, the discriminant or a part of an exact root. -/
def ExceedsRange (coefficients : Coefficients) : Prop :=
  overflowBound ≤ coefficients.exactSquare ∨ overflowBound ≤ |coefficients.exactProduct| ∨
    (1 - 1 / 2 ^ 52) * overflowBound ≤ |coefficients.exactDiscriminant| ∨
      coefficients.HasRootBeyond ((1 - 1 / 2 ^ 29) * (overflowBound : ℝ))

section Finite

variable (quadratic : coefficients.quadratic.isFinite = true)
  (linear : coefficients.linear.isFinite = true) (constant : coefficients.constant.isFinite = true)
  (room : 4 * |coefficients.quadratic.toRat| < overflowBound)

include linear in
theorem le_exactSquare_of_infinite (infinite : coefficients.linearSquared.isFinite = false) :
    overflowBound ≤ coefficients.exactSquare := by
  have alike : Alike coefficients.linearSquared (rounded coefficients.exactSquare) :=
    Binary64.mul_alike linear linear
  rwa [alike.isFinite_eq_false_iff, abs_of_nonneg coefficients.exactSquare_nonneg] at infinite

include quadratic constant room in
theorem le_exactProduct_of_infinite (infinite : coefficients.fourfoldProduct.isFinite = false) :
    overflowBound ≤ |coefficients.exactProduct| := by
  have fourfold := (Binary64.isFinite_fourfold_iff quadratic).mpr room
  exact (fourfoldProduct_alike_of_fourfold fourfold constant).isFinite_eq_false_iff.mp infinite

/-- **Parts that are finite have a difference that is not only where the discriminant is
nearly too large.**  The parts have opposite signs then, so nothing cancels. -/
theorem le_exactDiscriminant_of_infinite (squared : coefficients.linearSquared.isFinite = true)
    (product : coefficients.fourfoldProduct.isFinite = true)
    (infinite : coefficients.difference.isFinite = false) :
    (1 - 1 / 2 ^ 52) * overflowBound ≤ |coefficients.exactDiscriminant| := by
  have reached : overflowBound ≤
      |coefficients.linearSquared.toRat - coefficients.fourfoldProduct.toRat| := by
    have alike := Binary64.sub_alike squared product
    change coefficients.difference.Alike _ at alike
    exact alike.isFinite_eq_false_iff.mp infinite
  have squareNonneg : 0 ≤ coefficients.linearSquared.toRat :=
    (linearSquared_alike squared).toRat_nonneg squared coefficients.exactSquare_nonneg
  have opposite : coefficients.exactProduct ≤ 0 := by
    by_contra positive
    have productNonneg := (fourfoldProduct_alike product).toRat_nonneg product
      (not_le.mp positive).le
    have squareSmall := Binary64.abs_toRat_lt squared
    have productSmall := Binary64.abs_toRat_lt product
    rw [abs_of_nonneg squareNonneg] at squareSmall
    rw [abs_of_nonneg productNonneg] at productSmall
    exact absurd reached (not_le.mpr (abs_lt.mpr ⟨by linarith, by linarith⟩))
  have sum : |coefficients.exactDiscriminant| = coefficients.exactTotal := by
    rw [exactDiscriminant, exactTotal, abs_of_nonpos opposite, abs_of_nonneg]
    · ring
    · linarith [coefficients.exactSquare_nonneg]
  have large : (2 : ℚ) ^ 100 ≤ overflowBound := Binary64.two_pow_le_overflowBound (by decide)
  have halfSmall := Binary64.halfUnit_lt_one
  rw [sum]
  linarith [parts_le squared product, abs_sub coefficients.linearSquared.toRat
    coefficients.fourfoldProduct.toRat]

end Finite

/-- **A quadratic is too large only where something that belongs to it is**, if four times
its leading coefficient is in range. -/
theorem solve_tooLarge_explained (allowed : 1 ≤ settings.denominatorBound)
    (quadratic : coefficients.quadratic.isFinite = true)
    (linear : coefficients.linear.isFinite = true)
    (constant : coefficients.constant.isFinite = true)
    (nonzero : coefficients.quadratic.sameNumber 0 = false)
    (room : 4 * |coefficients.quadratic.toRat| < overflowBound) :
    ∃ report, coefficients.solve 2 settings = .ok report ∧
      (report.outcome = .tooLarge → coefficients.ExceedsRange) := by
  obtain ⟨report, solved, -⟩ := solve_succeeds allowed
    (fun one : (2 : UInt32) = 1 => absurd one (by decide)) (fun _ => nonzero)
  refine ⟨report, solved, fun tooLarge => ?_⟩
  obtain ⟨outcome, isOutcome, rfl⟩ := outcome_of_solve solved
  change outcome = .tooLarge at tooLarge
  subst tooLarge
  obtain ⟨leading, ⟨missing, -⟩ | ⟨discriminant, found, solvedBy⟩⟩ := solveQuadratic_cases isOutcome
  · by_cases squared : coefficients.linearSquared.isFinite = true
    · by_cases product : coefficients.fourfoldProduct.isFinite = true
      · rw [discriminant?_eq_none_iff, squared, product] at missing
        have infinite := (missing.resolve_left (by decide)).resolve_left (by decide)
        exact .inr (.inr (.inl (le_exactDiscriminant_of_infinite squared product infinite)))
      · exact .inr (.inl (le_exactProduct_of_infinite quadratic constant room
          (Bool.eq_false_of_not_eq_true product)))
    · exact .inl (le_exactSquare_of_infinite linear (Bool.eq_false_of_not_eq_true squared))
  · cases solvedBy with
    | tooLarge beyond =>
      obtain ⟨value, member, infinite⟩ := beyond
      exact .inr (.inr (.inr (hasRootBeyond_of_infinite found leading member infinite)))

/-- The polynomial `x² + 2 ^ 1023 · x + 1`. -/
def steep : Coefficients :=
  ⟨1, .finite false (2 ^ 52) 2045 (by decide), 1⟩

/-- The polynomial `x² + 2 ^ 1023 · x + 1` is too large, and for a reason. -/
theorem solve_steep_tooLarge :
    ∃ report, steep.solve 2 {} = .ok report ∧ report.outcome = .tooLarge ∧ steep.ExceedsRange := by
  have missing : steep.discriminant? = none := by decide +kernel
  have nonzero : ¬ steep.quadratic.Vanishes := by decide +kernel
  have one : steep.quadratic.toRat = 1 :=
    (Binary64.toRat_ofNat 1 (by decide)).2.trans Nat.cast_one
  obtain ⟨report, solved, explained⟩ := @solve_tooLarge_explained steep {} (by decide)
    (by decide +kernel) rfl (by decide +kernel) (by decide +kernel) (by
      rw [one, abs_one, mul_one]
      have large : (2 : ℚ) ^ 10 ≤ overflowBound := Binary64.two_pow_le_overflowBound (by decide)
      linarith)
  have same := (solve_eq_of_none nonzero missing).symm.trans solved
  have tooLarge : report.outcome = .tooLarge := by
    rw [← Except.ok.inj same]
  exact ⟨report, solved, tooLarge, explained tooLarge⟩

/-! ## Close to the overflow bound -/

/-- A quadratic whose discriminant is just below the overflow bound. -/
def borderline : Coefficients :=
  ⟨.finite false (2 ^ 52) (1074 + 348) (by decide),
    .finite false 8749713375627234 (1074 + 459) (by decide),
    .finite true 8121777488725976 (1074 + 565) (by decide)⟩

theorem toRat_borderline : borderline.quadratic.toRat = 2 ^ 52 * 2 ^ 348 ∧
    borderline.linear.toRat = 8749713375627234 * 2 ^ 459 ∧
    borderline.constant.toRat = -(8121777488725976 * 2 ^ 565) := by
  refine ⟨?_, ?_, ?_⟩
  · refine (Binary64.toRat_finite false (2 ^ 52) 348 _).trans ?_
    rw [Nat.cast_pow, Nat.cast_two]
    rfl
  · exact Binary64.toRat_finite false 8749713375627234 459 _
  · exact Binary64.toRat_finite true 8121777488725976 565 _

/-- The exact numbers of the borderline are all below the bound, counted in one unit. -/
theorem exact_borderline : borderline.exactSquare < overflowBound ∧
    |borderline.exactProduct| < overflowBound ∧
    |borderline.exactDiscriminant| < overflowBound := by
  obtain ⟨quadratic, linear, constant⟩ := toRat_borderline
  obtain ⟨unit, isUnit⟩ : ∃ unit : ℚ, unit = 2 ^ 918 := ⟨_, rfl⟩
  have positive : 0 < unit := isUnit ▸ pow_pos two_pos _
  have square : borderline.exactSquare = 8749713375627234 ^ 2 * unit := by
    have split : (2 : ℚ) ^ 918 = 2 ^ 459 * 2 ^ 459 := pow_add 2 459 459
    rw [exactSquare, linear, isUnit, split]
    generalize (2 : ℚ) ^ 459 = half
    ring
  have product : borderline.exactProduct = -(8121777488725976 * 2 ^ 49 * unit) := by
    have split : (2 : ℚ) ^ 918 = 2 ^ 348 * 2 ^ 565 * 2 ^ 5 := by
      rw [← pow_add 2 348 565, ← pow_add 2 (348 + 565) 5]
    rw [exactProduct, quadratic, constant, isUnit, split]
    generalize (2 : ℚ) ^ 348 = first
    generalize (2 : ℚ) ^ 565 = second
    ring
  have bound : overflowBound = (2 ^ 106 - 2 ^ 52) * unit := by
    have top : (2 : ℚ) ^ 1024 = 2 ^ 106 * 2 ^ 918 := pow_add 2 106 918
    have step : (2 : ℚ) ^ 970 = 2 ^ 52 * 2 ^ 918 := pow_add 2 52 918
    rw [overflowBound, top, step, isUnit, sub_mul]
  rw [exactDiscriminant, square, product, bound, sub_neg_eq_add, abs_neg,
    abs_of_nonneg (by positivity), abs_of_nonneg (by positivity)]
  exact ⟨by linarith only [positive], by linarith only [positive], by linarith only [positive]⟩

/-- No exact root of the borderline is near the bound either. -/
theorem root_borderline {z : ℂ} (root : borderline.IsRoot z) :
    |z.re| < (overflowBound : ℝ) ∧ |z.im| < (overflowBound : ℝ) := by
  obtain ⟨quadratic, linear, -⟩ := toRat_borderline
  obtain ⟨-, -, discriminant⟩ := exact_borderline
  obtain ⟨limit, isLimit⟩ : ∃ limit : ℚ, limit = 2 ^ 512 := ⟨_, rfl⟩
  have limitPositive : 0 < limit := isLimit ▸ pow_pos two_pos _
  have below : limit * 2 ≤ overflowBound := by
    rw [isLimit, ← pow_succ]
    exact Binary64.two_pow_le_overflowBound (by decide)
  have inside : |borderline.exactDiscriminant| ≤ limit ^ 2 := by
    rw [isLimit, ← pow_mul 2 512 2]
    exact discriminant.le.trans (sub_le_self _ (pow_nonneg zero_le_two _))
  have leading : 1 ≤ |borderline.quadratic.toRat| := by
    rw [quadratic, ← pow_add 2 52 348, abs_of_pos (pow_pos two_pos _)]
    exact one_le_pow₀ one_le_two
  have linearSmall : |borderline.linear.toRat| ≤ limit := by
    have split : (2 : ℚ) ^ 512 = 2 ^ 53 * 2 ^ 459 := pow_add 2 53 459
    rw [linear, isLimit, split, abs_of_pos (mul_pos (by norm_num) (pow_pos two_pos _))]
    exact mul_le_mul_of_nonneg_right (by norm_num) (pow_pos two_pos _).le
  have nonzero : borderline.quadratic.toRat ≠ 0 := fun zero => by
    rw [zero, abs_zero] at leading
    linarith
  have insideCast : |(borderline.exactDiscriminant : ℝ)| ≤ (limit : ℝ) ^ 2 := by
    exact_mod_cast inside
  have leadingCast : (1 : ℝ) ≤ |(borderline.quadratic.toRat : ℝ)| := by exact_mod_cast leading
  have linearCast : |(borderline.linear.toRat : ℝ)| ≤ limit := by exact_mod_cast linearSmall
  have limitCast : (0 : ℝ) < limit := Rat.cast_pos.mpr limitPositive
  have belowCast : (limit : ℝ) * 2 ≤ (overflowBound : ℝ) := by exact_mod_cast below
  have far := norm_root_le nonzero limitCast.le insideCast root
  have near : ‖z‖ ≤ |(borderline.quadratic.toRat : ℝ)| * ‖z‖ :=
    le_mul_of_one_le_left (norm_nonneg z) leadingCast
  have norm : ‖z‖ < (overflowBound : ℝ) := by linarith
  exact ⟨(Complex.abs_re_le_norm z).trans_lt norm, (Complex.abs_im_le_norm z).trans_lt norm⟩

/-- **Rounding may carry a discriminant over the bound.**  Nothing that belongs to this
polynomial reaches the overflow bound, and four times its leading coefficient does not
either, but the square of its linear coefficient is rounded up. -/
theorem solve_borderline_tooLarge :
    (borderline.quadratic.isFinite = true ∧ borderline.linear.isFinite = true ∧
      borderline.constant.isFinite = true ∧ ¬ borderline.quadratic.Vanishes ∧
      (4 * borderline.quadratic).isFinite = true) ∧
    (borderline.exactSquare < overflowBound ∧ |borderline.exactProduct| < overflowBound ∧
      |borderline.exactDiscriminant| < overflowBound ∧
      ∀ z : ℂ, borderline.IsRoot z →
        |z.re| < (overflowBound : ℝ) ∧ |z.im| < (overflowBound : ℝ)) ∧
    ∃ report, borderline.solve 2 {} = .ok report ∧ report.outcome = .tooLarge := by
  have missing : borderline.discriminant? = none := by decide +kernel
  have nonzero : ¬ borderline.quadratic.Vanishes := by decide +kernel
  have fourfold : (4 * borderline.quadratic).isFinite = true := by decide +kernel
  obtain ⟨square, product, discriminant⟩ := exact_borderline
  exact ⟨⟨rfl, rfl, rfl, nonzero, fourfold⟩,
    ⟨square, product, discriminant, fun _ root => root_borderline root⟩,
    _, solve_eq_of_none nonzero missing, rfl⟩

end Coefficients

end Quadratics
