import Quadratics.Proofs.Binary64.SquareRoot
import Quadratics.Proofs.Equation.Mirrored
import Quadratics.Proofs.Solution.Quadratic
import Quadratics.Proofs.Solution.Safety

/-!
# Solutions of mirrored equations

Changing the sign of every value of an equation changes none of its solutions, and neither
does exchanging its sides.  The computation takes other ways, though.  The discriminant is
made of products of two coefficients each, where the signs cancel
(`Opposed.discriminant?_eq`).  In the formulas for the roots it is the denominator that
changes its sign, and with it the two signs of the square root change places.  So the roots
come out in the other order (`Outcome.Mirrors`), but they are the same to the last bit
(`solve_mirrored`).
-/

namespace Quadratics

set_option autoImplicit false

open Binary64 (Alike Opposite)

/-! ## Roots -/

/-- The root made from a value does not depend on the sign of a zero. -/
theorem RealRoot.ofValue_congr {value other : Binary64} (alike : Alike value other)
    (settings : Settings) : RealRoot.ofValue value settings = RealRoot.ofValue other settings := by
  unfold RealRoot.ofValue
  rw [alike.add_zero_eq]

/-- Two conjugate roots have the same real part and the same imaginary part. -/
def ConjugateRoot.SameValue (root other : ConjugateRoot) : Prop :=
  root.realPart = other.realPart ∧ root.imaginaryPart = other.imaginaryPart

namespace Outcome

/-- The outcomes are of one kind, and the roots are the same in exchanged order. -/
inductive Mirrors : Outcome → Outcome → Prop where
  | everyNumber : Mirrors .everyNumber .everyNumber
  | noNumber : Mirrors .noNumber .noNumber
  | one (root : RealRoot) : Mirrors (.one root) (.one root)
  | two (first second : RealRoot) : Mirrors (.two first second) (.two second first)
  | conjugates {first second first' second' : ConjugateRoot} (here : first'.SameValue second)
      (there : second'.SameValue first) :
      Mirrors (.conjugates first second) (.conjugates first' second')
  | unsupported : Mirrors .unsupported .unsupported
  | tooLarge : Mirrors .tooLarge .tooLarge

theorem Mirrors.eq_two {first second : RealRoot} {outcome : Outcome}
    (mirrors : Outcome.Mirrors (.two first second) outcome) : outcome = .two second first := by
  cases mirrors
  rfl

variable {first second first' second' value value' : Binary64} {settings : Settings}
  {outcome : Outcome}

theorem ofRoot_mirrors (alike : Alike value' value)
    (solved : ofRoot value settings = .ok outcome) :
    ofRoot value' settings = .ok outcome ∧ outcome.Mirrors outcome := by
  unfold ofRoot
  rw [alike.isFinite_eq, RealRoot.ofValue_congr alike]
  rcases ofRoot_cases solved with ⟨root, rfl, -, -⟩ | ⟨rfl, -⟩
  · exact ⟨solved, .one root⟩
  · exact ⟨solved, .tooLarge⟩

/-- Two real roots that are made in the other order. -/
theorem ofRoots_mirrors (alike : Alike first' second) (alike' : Alike second' first)
    (solved : ofRoots first second settings = .ok outcome) :
    ∃ mirrored, ofRoots first' second' settings = .ok mirrored ∧ outcome.Mirrors mirrored := by
  unfold ofRoots
  rw [alike.isFinite_eq, alike'.isFinite_eq, RealRoot.ofValue_congr alike,
    RealRoot.ofValue_congr alike']
  rcases ofRoots_cases solved with
    ⟨left, right, rfl, finite, finite', made, made'⟩ | ⟨rfl, infinite⟩
  · rw [if_pos ⟨finite', finite⟩, made, made']
    exact ⟨_, rfl, .two left right⟩
  · rw [if_neg fun ⟨finite', finite⟩ => by simp [finite, finite'] at infinite]
    exact ⟨_, rfl, .tooLarge⟩

/-- Two conjugate roots that are made in the other order. -/
theorem ofConjugates_mirrors {real radicand denominator real' denominator' : Binary64}
    (places : Nat) (realOpposite : Opposite real real')
    (denominatorOpposite : Opposite denominator denominator')
    (root : radicand.sqrt.isFinite = true) (finite : denominator.isFinite = true)
    (nonzero : ¬ denominator.Vanishes) :
    (ofConjugates real radicand denominator places).Mirrors
      (ofConjugates real' radicand denominator' places) := by
  have realParts : real' / denominator' + 0 = real / denominator + 0 :=
    (realOpposite.div denominatorOpposite nonzero).add_zero_eq
  have imaginaryParts : radicand.sqrt / denominator' = -(radicand.sqrt / denominator) := by
    rw [denominatorOpposite.eq_neg nonzero, Binary64.div_neg root finite nonzero]
  unfold ofConjugates
  simp only [ConjugateRoot.realPart, ConjugateRoot.imaginaryPart, Bool.false_eq_true, if_false,
    realParts, imaginaryParts, Binary64.isFinite_neg]
  split
  · refine .conjugates ⟨realParts, ?_⟩ ⟨realParts, imaginaryParts⟩
    show -(radicand.sqrt / denominator') = radicand.sqrt / denominator
    rw [imaginaryParts, Binary64.neg_neg]
  · exact .tooLarge

end Outcome

/-- The reports are of one kind, and the roots are the same in exchanged order. -/
structure Report.Mirrors (report other : Report) : Prop where
  /-- The degree is the same. -/
  degree : other.degree = report.degree
  /-- The discriminant is the same. -/
  discriminant : other.discriminant = report.discriminant
  /-- The outcomes are the same but for the order of roots. -/
  outcome : report.outcome.Mirrors other.outcome

/-! ## Opposite coefficients -/

namespace Coefficients

/-- The coefficients of one polynomial are opposite to those of another. -/
structure Opposed (coefficients other : Coefficients) : Prop where
  quadratic : Opposite coefficients.quadratic other.quadratic
  linear : Opposite coefficients.linear other.linear
  constant : Opposite coefficients.constant other.constant

variable {coefficients other : Coefficients} {settings : Settings} {discriminant : Binary64}
  {outcome : Outcome}

/-- The square root that the formulas take is finite. -/
theorem Discriminated.isFinite_sqrt (discriminated : coefficients.Discriminated discriminant) :
    (if 0 < discriminant then discriminant else -discriminant).sqrt.isFinite = true := by
  have finite := discriminated.finite
  have compared := Binary64.lt_iff_toRat Binary64.vanishes_zero.1 finite
  rw [Binary64.toRat_zero] at compared
  split
  · rename_i positive
    exact Binary64.isFinite_sqrt finite (compared.mp positive).le
  · rename_i notPositive
    refine Binary64.isFinite_sqrt ((Binary64.isFinite_neg _).trans finite) ?_
    rw [Binary64.toRat_neg]
    exact neg_nonneg.mpr (not_lt.mp fun positive => notPositive (compared.mpr positive))

/-- **A discriminant depends on its two parts only**, and not on the signs of zeros. -/
theorem discriminant?_congr (squared : Alike other.linearSquared coefficients.linearSquared)
    (product : Alike other.fourfoldProduct coefficients.fourfoldProduct) :
    other.discriminant? = coefficients.discriminant? := by
  have difference : Alike other.difference coefficients.difference := squared.add product.neg
  have agree : other.partsAgree = coefficients.partsAgree := by
    simp only [partsAgree, squared.abs_eq, product.abs_eq, difference.abs_eq]
  unfold discriminant?
  rw [difference.isFinite_eq, squared.isFinite_eq, product.isFinite_eq, agree]
  split
  · rename_i finite
    congr 1
    split
    · rfl
    · rename_i disagree
      -- Parts that do not agree are no equal parts, so no zero is left to differ in sign.
      exact (difference.symm.eq_of_not_vanishes fun vanishes =>
        disagree (partsAgree_of_vanishes finite.2.1 finite.2.2 vanishes)).symm
  · rfl

namespace Opposed

variable (opposed : coefficients.Opposed other)
include opposed

theorem linearSquared_alike : Alike other.linearSquared coefficients.linearSquared :=
  opposed.linear.mul opposed.linear

theorem fourfoldProduct_alike : Alike other.fourfoldProduct coefficients.fourfoldProduct := by
  have fourfold : Opposite (4 * coefficients.quadratic) (4 * other.quadratic) :=
    opposed.quadratic.ofNat_mul (by decide) (by decide)
  exact fourfold.mul opposed.constant

/-- **Opposite coefficients have the same discriminant.** -/
theorem discriminant?_eq : other.discriminant? = coefficients.discriminant? :=
  discriminant?_congr opposed.linearSquared_alike opposed.fourfoldProduct_alike

theorem solveConstant_mirrors : coefficients.solveConstant.Mirrors other.solveConstant := by
  unfold solveConstant
  rw [opposed.constant.sameNumber_zero_eq]
  split
  · exact .everyNumber
  · exact .noNumber

theorem solveLinear_mirrors (solved : coefficients.solveLinear settings = .ok outcome) :
    ∃ mirrored, other.solveLinear settings = .ok mirrored ∧ outcome.Mirrors mirrored := by
  unfold solveLinear at solved ⊢
  rw [opposed.linear.sameNumber_zero_eq]
  split at solved
  · cases solved
  · rename_i nonzero
    rw [if_neg nonzero]
    rw [Binary64.sameNumber_zero_iff] at nonzero
    exact ⟨outcome, Outcome.ofRoot_mirrors (opposed.constant.neg.div opposed.linear nonzero) solved⟩

/-- A discriminant gives the same roots in exchanged order. -/
theorem solveBy_mirrors (discriminated : coefficients.Discriminated discriminant)
    (nonzero : ¬ coefficients.quadratic.Vanishes)
    (solved : coefficients.solveBy discriminant settings = .ok outcome) :
    ∃ mirrored, other.solveBy discriminant settings = .ok mirrored ∧ outcome.Mirrors mirrored := by
  have denominator : Opposite (2 * coefficients.quadratic) (2 * other.quadratic) :=
    opposed.quadratic.ofNat_mul (by decide) (by decide)
  have denominatorNonzero := discriminated.denominator_nonzero nonzero
  have root := discriminated.isFinite_sqrt
  unfold solveBy at solved ⊢
  dsimp only at solved ⊢
  split at solved
  · rename_i positive
    rw [if_pos positive] at root
    have roots : Opposite (-discriminant.sqrt) discriminant.sqrt :=
      (Binary64.opposite_neg (Binary64.isNaN_eq_false root)).symm
    rw [if_pos positive]
    -- Where one formula subtracts the square root, the other one adds it.
    exact Outcome.ofRoots_mirrors
      ((opposed.linear.neg.add roots.symm root).div denominator denominatorNonzero)
      ((opposed.linear.neg.add roots ((Binary64.isFinite_neg _).trans root)).div denominator
        denominatorNonzero) solved
  · rename_i notPositive
    rw [if_neg notPositive] at root ⊢
    split at solved
    · rename_i zero
      rw [if_pos zero]
      exact ⟨outcome,
        Outcome.ofRoot_mirrors (opposed.linear.neg.div denominator denominatorNonzero) solved⟩
    · rename_i notZero
      rw [if_neg notZero]
      have real : Opposite (-coefficients.linear + 0) (-other.linear + 0) :=
        opposed.linear.neg.congr (Binary64.alike_add_zero _) (Binary64.alike_add_zero _)
      cases solved
      exact ⟨_, rfl, Outcome.ofConjugates_mirrors settings.places real denominator root
        discriminated.denominator denominatorNonzero⟩

theorem solveQuadratic_mirrors (solved : coefficients.solveQuadratic settings = .ok outcome) :
    ∃ mirrored, other.solveQuadratic settings = .ok mirrored ∧ outcome.Mirrors mirrored := by
  unfold solveQuadratic at solved ⊢
  rw [opposed.quadratic.sameNumber_zero_eq, opposed.discriminant?_eq]
  split at solved
  · cases solved
  · rename_i nonzero
    rw [if_neg nonzero]
    rw [Binary64.sameNumber_zero_iff] at nonzero
    cases found : coefficients.discriminant? with
    | some discriminant =>
      rw [found] at solved
      exact opposed.solveBy_mirrors (discriminated found) nonzero solved
    | none =>
      rw [found] at solved
      cases solved
      exact ⟨_, rfl, .tooLarge⟩

/-- **Polynomials with opposite coefficients have the same solutions.** -/
theorem solve_mirrors {degree : UInt32} {report : Report}
    (solved : coefficients.solve degree settings = .ok report) :
    ∃ mirrored, other.solve degree settings = .ok mirrored ∧ report.Mirrors mirrored := by
  obtain ⟨outcome, isOutcome, rfl⟩ := outcome_of_solve solved
  have outcomes : ∃ mirrored, other.outcome degree settings = .ok mirrored ∧
      outcome.Mirrors mirrored := by
    unfold Coefficients.outcome at isOutcome ⊢
    by_cases isZero : degree = 0
    · rw [if_pos isZero] at isOutcome ⊢
      cases isOutcome
      exact ⟨_, rfl, opposed.solveConstant_mirrors⟩
    rw [if_neg isZero] at isOutcome ⊢
    by_cases isOne : degree = 1
    · rw [if_pos isOne] at isOutcome ⊢
      exact opposed.solveLinear_mirrors isOutcome
    rw [if_neg isOne] at isOutcome ⊢
    by_cases isTwo : degree = 2
    · rw [if_pos isTwo] at isOutcome ⊢
      exact opposed.solveQuadratic_mirrors isOutcome
    rw [if_neg isTwo] at isOutcome ⊢
    cases isOutcome
    exact ⟨_, rfl, .unsupported⟩
  obtain ⟨mirrored, isMirrored, mirrors⟩ := outcomes
  unfold solve
  rw [isMirrored, opposed.discriminant?_eq]
  exact ⟨_, rfl, rfl, rfl, mirrors⟩

end Opposed

end Coefficients

/-! ## Mirrored equations -/

namespace Equation

/-- **Negating every value or exchanging the sides changes no solution.** -/
theorem solve_mirrored {equation other : Equation} {settings : Settings}
    (written : equation.form = .written) (finite : equation.FiniteValues)
    (allowed : 1 ≤ settings.denominatorBound) (mirrored : Mirrored equation other) :
    other.reduce = equation.reduce.negated ∧
      ∃ report report', equation.solve settings = .ok report ∧
        other.solve settings = .ok report' ∧ report.Mirrors report' := by
  have opposite := coefficient_mirrored written mirrored finite
  have opposed : equation.coefficients.Opposed other.coefficients :=
    ⟨opposite 2, opposite 1, opposite 0⟩
  have wellFormed : equation.WellFormed := fun reduced => by
    rw [written] at reduced
    cases reduced
  obtain ⟨report, solved, -, -⟩ := wellFormed.solve_succeeds allowed
  obtain ⟨report', solved', mirrors⟩ := opposed.solve_mirrors solved
  refine ⟨reduce_mirrored written mirrored finite, report, report', solved, ?_, mirrors⟩
  rw [Equation.solve, degree_mirrored written mirrored finite]
  exact solved'

/-- The equation `2·x² = x + 3` and the exchanged one have the roots `-1` and `3/2`. -/
theorem solve_mirrored_halves :
    (ofSides [⟨1, 1⟩, ⟨3, 0⟩] [⟨2, 2⟩]).reduce =
        (ofSides [⟨2, 2⟩] [⟨1, 1⟩, ⟨3, 0⟩]).reduce.negated ∧
      ∃ report report', (ofSides [⟨2, 2⟩] [⟨1, 1⟩, ⟨3, 0⟩]).solve {} = .ok report ∧
        (ofSides [⟨1, 1⟩, ⟨3, 0⟩] [⟨2, 2⟩]).solve {} = .ok report' ∧ report.Mirrors report' ∧
        report.outcome = .two ⟨-1, none, 3⟩ ⟨3 / 2, some (3 / 2), 3⟩ ∧
        report'.outcome = .two ⟨3 / 2, some (3 / 2), 3⟩ ⟨-1, none, 3⟩ := by
  have finite : (ofSides [⟨2, 2⟩] [⟨1, 1⟩, ⟨3, 0⟩]).FiniteValues := by
    unfold FiniteValues
    decide +kernel
  have mirrored : Mirrored (ofSides [⟨2, 2⟩] [⟨1, 1⟩, ⟨3, 0⟩])
      (ofSides [⟨1, 1⟩, ⟨3, 0⟩] [⟨2, 2⟩]) := .exchanged (by decide)
  obtain ⟨reduced, report, report', solved, solved', mirrors⟩ :=
    @solve_mirrored _ _ {} rfl finite (by decide) mirrored
  have outcome : ((ofSides [⟨2, 2⟩] [⟨1, 1⟩, ⟨3, 0⟩]).solve {}).map Report.outcome =
      .ok (.two ⟨-1, none, 3⟩ ⟨3 / 2, some (3 / 2), 3⟩) := by
    decide +kernel
  rw [solved] at outcome
  have first : report.outcome = .two ⟨-1, none, 3⟩ ⟨3 / 2, some (3 / 2), 3⟩ := Except.ok.inj outcome
  refine ⟨reduced, report, report', solved, solved', mirrors, first, ?_⟩
  have exchanged := mirrors.outcome
  rw [first] at exchanged
  exact exchanged.eq_two

end Equation

end Quadratics
