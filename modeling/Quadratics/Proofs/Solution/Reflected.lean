import Quadratics.Proofs.Equation.Reflected
import Quadratics.Proofs.Fraction.Closest
import Quadratics.Proofs.Solution.Mirrored

/-!
# Solutions of reflected equations

Putting `-x` for `x` changes the sign of every solution, and the computation follows: only
the linear coefficient changes its sign, so the discriminant and the denominator of the
formulas stay, and where one formula subtracts the square root the reflected one adds it.
Two real roots come out as the opposite roots in exchanged order, and two conjugate roots
keep their imaginary parts (`Outcome.Reflects`).

A root keeps its fraction when its sign changes.  The search for the fraction leaves the
sign aside, and the tests on the way, whether a value looks whole and whether a fraction
agrees with it, do not depend on the sign (`RealRoot.fractionBeside_reflects`).
-/

namespace Quadratics

set_option autoImplicit false

open Binary64 (Alike)

/-! ## Fractions beside reflected values -/

/-- Integers of opposite signs are opposite values. -/
theorem Binary64.opposite_ofInt (number : ℤ) : Opposite (ofInt number) (ofInt (-number)) := by
  rcases eq_or_ne number 0 with rfl | nonzero
  · exact opposite_zero
  · have signs : decide (-number < 0) = !decide (number < 0) := by
      rw [← decide_not, decide_eq_decide]
      omega
    have negated : ofInt (-number) = -ofInt number := by
      rw [ofInt, ofInt, neg_ofQuotient, signs, Int.natAbs_neg]
    rw [negated]
    exact opposite_neg (isNaN_ofQuotient _ _ _)

theorem Fraction.toBinary64_reflects (fraction : ℚ) :
    Binary64.Reflects (toBinary64 fraction) (toBinary64 (-fraction)) :=
  (Binary64.Reflects.opposite (Binary64.opposite_ofInt fraction.num)).div_right _

namespace RealRoot

variable {value value' : Binary64} {settings : Settings}

/-- A fraction agrees with a value just where the opposite one agrees with the reflected
value. -/
theorem agrees_reflects (reflects : Binary64.Reflects value value') (places : Nat)
    (fraction : ℚ) : agrees value' places (-fraction) = agrees value places fraction := by
  have fractions := (Fraction.toBinary64_reflects fraction).roundTo places
  rw [agrees, agrees, fractions.sameNumber_eq (reflects.roundTo places)]

/-- **The fractions kept beside reflected values are opposite.** -/
theorem fractionBeside_reflects (reflects : Binary64.Reflects value value')
    (allowed : 1 ≤ settings.denominatorBound) :
    ∃ fraction : Option ℚ, fractionBeside value settings = .ok fraction ∧
      fractionBeside value' settings = .ok (fraction.map Neg.neg) := by
  unfold fractionBeside
  rw [reflects.looksWhole_eq]
  by_cases whole : value.looksWhole = true
  · rw [if_pos whole, if_pos whole]
    exact ⟨none, rfl, rfl⟩
  · rw [if_neg whole, if_neg whole]
    obtain ⟨found, isFound, isFound'⟩ := Fraction.closest?_reflects reflects allowed
    have agree : agrees value' settings.places ∘ Neg.neg = agrees value settings.places := by
      funext fraction
      rw [Function.comp_apply, agrees_reflects reflects]
    rw [isFound, isFound']
    refine ⟨_, rfl, congrArg Except.ok ?_⟩
    dsimp only
    rw [Option.filter_map, agree]

/-- One root is the other one with the sign changed, and its fraction too. -/
structure Opposite (root other : RealRoot) : Prop where
  /-- The values are opposite. -/
  value : Binary64.Opposite root.value other.value
  /-- There is a fraction beside both or neither, and fractions are opposite. -/
  fraction : other.fraction = root.fraction.map Neg.neg
  /-- The places are the same. -/
  places : other.places = root.places

/-- **Opposite values make opposite roots.** -/
theorem ofValue_opposite (opposite : Binary64.Opposite value value')
    (allowed : 1 ≤ settings.denominatorBound) :
    ∃ root root', ofValue value settings = .ok root ∧ ofValue value' settings = .ok root' ∧
      root.Opposite root' := by
  have unsigned : Binary64.Opposite (value + 0) (value' + 0) :=
    opposite.congr (Binary64.alike_add_zero value) (Binary64.alike_add_zero value')
  obtain ⟨fraction, beside, beside'⟩ := fractionBeside_reflects (.opposite unsigned) allowed
  unfold ofValue
  dsimp only
  rw [beside, beside']
  exact ⟨_, _, rfl, rfl, unsigned, rfl, rfl⟩

end RealRoot

/-! ## Outcomes -/

/-- Two conjugate roots have opposite real parts and the same imaginary part. -/
structure ConjugateRoot.Reflects (root other : ConjugateRoot) : Prop where
  /-- The real parts are opposite. -/
  real : Binary64.Opposite root.realPart other.realPart
  /-- The imaginary parts are the same. -/
  imaginary : other.imaginaryPart = root.imaginaryPart

namespace Outcome

/-- The outcomes are of one kind, and the roots are reflected.  Two real roots change their
places with their signs. -/
inductive Reflects : Outcome → Outcome → Prop where
  | everyNumber : Reflects .everyNumber .everyNumber
  | noNumber : Reflects .noNumber .noNumber
  | one {root root' : RealRoot} (opposite : root.Opposite root') :
      Reflects (.one root) (.one root')
  | two {first second first' second' : RealRoot} (smaller : second.Opposite first')
      (larger : first.Opposite second') : Reflects (.two first second) (.two first' second')
  | conjugates {first second first' second' : ConjugateRoot} (here : first.Reflects first')
      (there : second.Reflects second') :
      Reflects (.conjugates first second) (.conjugates first' second')
  | unsupported : Reflects .unsupported .unsupported
  | tooLarge : Reflects .tooLarge .tooLarge

variable {first second first' second' value value' : Binary64} {settings : Settings}

/-- An outcome was reached, and its reflection from the reflected data. -/
def BothReflect (solved solved' : Except Misuse Outcome) : Prop :=
  ∃ outcome outcome', solved = .ok outcome ∧ solved' = .ok outcome' ∧ outcome.Reflects outcome'

theorem ofRoot_reflects (reflects : Binary64.Reflects value value')
    (allowed : 1 ≤ settings.denominatorBound) :
    BothReflect (ofRoot value settings) (ofRoot value' settings) := by
  unfold ofRoot
  rw [reflects.isFinite_eq]
  split
  · rename_i finite
    obtain ⟨root, root', made, made', opposite⟩ :=
      RealRoot.ofValue_opposite (reflects.opposite_of_isFinite finite) allowed
    rw [made, made']
    exact ⟨_, _, rfl, rfl, .one opposite⟩
  · exact ⟨_, _, rfl, rfl, .tooLarge⟩

/-- Two real roots whose reflections are made in the other order. -/
theorem ofRoots_reflects (reflects : Binary64.Reflects first second')
    (reflects' : Binary64.Reflects second first') (allowed : 1 ≤ settings.denominatorBound) :
    BothReflect (ofRoots first second settings) (ofRoots first' second' settings) := by
  unfold ofRoots
  rw [reflects.isFinite_eq, reflects'.isFinite_eq]
  split
  · rename_i finite
    obtain ⟨left, right', made, made', larger⟩ :=
      RealRoot.ofValue_opposite (reflects.opposite_of_isFinite finite.1) allowed
    obtain ⟨right, left', made₂, made₂', smaller⟩ :=
      RealRoot.ofValue_opposite (reflects'.opposite_of_isFinite finite.2) allowed
    rw [if_pos finite.symm, made, made', made₂, made₂']
    exact ⟨_, _, rfl, rfl, .two smaller larger⟩
  · rename_i infinite
    rw [if_neg fun finite => infinite finite.symm]
    exact ⟨_, _, rfl, rfl, .tooLarge⟩

/-- Two conjugate roots of which the real part changes its sign. -/
theorem ofConjugates_reflects {real real' : Binary64} (reflects : Binary64.Reflects real real')
    (radicand denominator : Binary64) (places : Nat) :
    (ofConjugates real radicand denominator places).Reflects
      (ofConjugates real' radicand denominator places) := by
  have realParts : Binary64.Reflects (real / denominator + 0) (real' / denominator + 0) :=
    (reflects.div_right denominator).add_zero
  unfold ofConjugates
  simp only [ConjugateRoot.realPart, ConjugateRoot.imaginaryPart, Bool.false_eq_true, if_false,
    realParts.isFinite_eq]
  split
  · rename_i finite
    have opposite := realParts.opposite_of_isFinite finite.1
    exact .conjugates ⟨opposite, rfl⟩ ⟨opposite, rfl⟩
  · exact .tooLarge

end Outcome

/-- The reports are of one kind, and the roots are reflected. -/
structure Report.Reflects (report other : Report) : Prop where
  /-- The degree is the same. -/
  degree : other.degree = report.degree
  /-- The discriminant is the same. -/
  discriminant : other.discriminant = report.discriminant
  /-- The outcomes are reflected. -/
  outcome : report.outcome.Reflects other.outcome

/-! ## Reflected coefficients -/

namespace Coefficients

/-- The coefficients of one polynomial are those of another at `-x`. -/
structure Reflected (coefficients other : Coefficients) : Prop where
  quadratic : other.quadratic = coefficients.quadratic
  linear : Binary64.Opposite coefficients.linear other.linear
  constant : other.constant = coefficients.constant

namespace Reflected

variable {coefficients other : Coefficients} {settings : Settings} {discriminant : Binary64}
  (reflected : coefficients.Reflected other)
include reflected

/-- **Reflected polynomials have the same discriminant.** -/
theorem discriminant?_eq : other.discriminant? = coefficients.discriminant? := by
  refine discriminant?_congr (reflected.linear.mul reflected.linear) ?_
  rw [fourfoldProduct, fourfoldProduct, reflected.quadratic, reflected.constant]
  exact .refl _

theorem solveConstant_eq : other.solveConstant = coefficients.solveConstant := by
  unfold solveConstant
  rw [reflected.constant]

variable (allowed : 1 ≤ settings.denominatorBound)
include allowed

theorem solveLinear_reflects (nonzero : ¬ coefficients.linear.Vanishes) :
    Outcome.BothReflect (coefficients.solveLinear settings) (other.solveLinear settings) := by
  have different := Binary64.sameNumber_zero_iff.not.mpr nonzero
  unfold solveLinear
  rw [reflected.linear.sameNumber_zero_eq, if_neg different, if_neg different, reflected.constant]
  exact Outcome.ofRoot_reflects (reflected.linear.reflects_div nonzero _) allowed

/-- A discriminant gives opposite roots in exchanged order. -/
theorem solveBy_reflects (discriminated : coefficients.Discriminated discriminant) :
    Outcome.BothReflect (coefficients.solveBy discriminant settings)
      (other.solveBy discriminant settings) := by
  have root := discriminated.isFinite_sqrt
  have negated := reflected.linear.neg
  unfold solveBy
  dsimp only
  rw [reflected.quadratic]
  split
  · rename_i positive
    rw [if_pos positive] at root
    have roots := Binary64.opposite_neg (Binary64.isNaN_eq_false root)
    -- Where one formula subtracts the square root, the reflected one adds it.
    exact Outcome.ofRoots_reflects
      ((Binary64.Reflects.opposite (negated.add roots.symm
        ((Binary64.isFinite_neg _).trans root))).div_right _)
      ((Binary64.Reflects.opposite (negated.add roots root)).div_right _) allowed
  · split
    · exact Outcome.ofRoot_reflects ((Binary64.Reflects.opposite negated).div_right _) allowed
    · exact ⟨_, _, rfl, rfl,
        Outcome.ofConjugates_reflects (Binary64.Reflects.opposite negated).add_zero _ _ _⟩

theorem solveQuadratic_reflects (nonzero : ¬ coefficients.quadratic.Vanishes) :
    Outcome.BothReflect (coefficients.solveQuadratic settings) (other.solveQuadratic settings) := by
  have different := Binary64.sameNumber_zero_iff.not.mpr nonzero
  unfold solveQuadratic
  rw [reflected.quadratic, if_neg different, if_neg different, reflected.discriminant?_eq]
  cases found : coefficients.discriminant? with
  | some discriminant => exact reflected.solveBy_reflects allowed (discriminated found)
  | none => exact ⟨_, _, rfl, rfl, .tooLarge⟩

/-- **Polynomials with reflected coefficients have reflected solutions**, if the leading
coefficient does not vanish. -/
theorem solve_reflects {degree : UInt32} (linear : degree = 1 → ¬ coefficients.linear.Vanishes)
    (quadratic : degree = 2 → ¬ coefficients.quadratic.Vanishes) :
    ∃ report report', coefficients.solve degree settings = .ok report ∧
      other.solve degree settings = .ok report' ∧ report.Reflects report' := by
  have outcomes : Outcome.BothReflect (coefficients.outcome degree settings)
      (other.outcome degree settings) := by
    unfold Coefficients.outcome
    split
    · rw [reflected.solveConstant_eq]
      refine ⟨_, _, rfl, rfl, ?_⟩
      unfold solveConstant
      split
      · exact .everyNumber
      · exact .noNumber
    split
    · rename_i isOne
      exact reflected.solveLinear_reflects allowed (linear isOne)
    split
    · rename_i isTwo
      exact reflected.solveQuadratic_reflects allowed (quadratic isTwo)
    · exact ⟨_, _, rfl, rfl, .unsupported⟩
  obtain ⟨outcome, outcome', solved, solved', reflects⟩ := outcomes
  unfold solve
  rw [solved, solved', reflected.discriminant?_eq]
  exact ⟨_, _, rfl, rfl, rfl, rfl, reflects⟩

end Reflected

end Coefficients

/-! ## Reflected equations -/

namespace Equation

/-- **Putting `-x` for `x` changes the sign of every solution**, and reflects the reduced
form. -/
theorem solve_reflected {equation : Equation} {settings : Settings}
    (written : equation.form = .written) (finite : equation.FiniteValues)
    (allowed : 1 ≤ settings.denominatorBound) :
    equation.reflected.reduce = equation.reduce.reflected ∧
      ∃ report report', equation.solve settings = .ok report ∧
        equation.reflected.solve settings = .ok report' ∧ report.Reflects report' := by
  have reflected : equation.coefficients.Reflected equation.reflected.coefficients :=
    ⟨coefficient_reflected_even written finite (by decide),
      coefficient_reflected_odd written finite (by decide),
      coefficient_reflected_even written finite (by decide)⟩
  have wellFormed : equation.WellFormed := fun reduced => by
    rw [written] at reduced
    cases reduced
  have leading : ∀ power, equation.reduce.degree = power → power ≠ 0 →
      ¬ (equation.reduce.coefficient power).Vanishes := by
    rintro _ rfl positive
    exact Binary64.sameNumber_zero_eq_false_iff.mp (wellFormed.leading_nonzero positive)
  refine ⟨reduce_reflected written finite, ?_⟩
  rw [Equation.solve, Equation.solve, degree_reflected written finite]
  exact reflected.solve_reflects allowed (fun isOne => leading 1 isOne (by decide))
    fun isTwo => leading 2 isTwo (by decide)

/-- The equation `2·x² = x + 3` has the roots `-1` and `3/2`, and `2·x² = -x + 3` has the
roots `-3/2` and `1`. -/
theorem solve_reflected_halves :
    (ofSides [⟨2, 2⟩] [⟨1, 1⟩, ⟨3, 0⟩]).reflected = ofSides [⟨2, 2⟩] [⟨-1, 1⟩, ⟨3, 0⟩] ∧
      ∃ report report', (ofSides [⟨2, 2⟩] [⟨1, 1⟩, ⟨3, 0⟩]).solve {} = .ok report ∧
        (ofSides [⟨2, 2⟩] [⟨-1, 1⟩, ⟨3, 0⟩]).solve {} = .ok report' ∧ report.Reflects report' ∧
        report.outcome = .two ⟨-1, none, 3⟩ ⟨3 / 2, some (3 / 2), 3⟩ ∧
        report'.outcome = .two ⟨-(3 / 2), some (-(3 / 2)), 3⟩ ⟨1, none, 3⟩ := by
  have finite : (ofSides [⟨2, 2⟩] [⟨1, 1⟩, ⟨3, 0⟩]).FiniteValues := by
    unfold FiniteValues
    decide +kernel
  obtain ⟨-, report, report', solved, solved', reflects⟩ :=
    @solve_reflected _ {} rfl finite (by decide)
  have outcomes :
      ((ofSides [⟨2, 2⟩] [⟨1, 1⟩, ⟨3, 0⟩]).solve {}).map Report.outcome =
          .ok (.two ⟨-1, none, 3⟩ ⟨3 / 2, some (3 / 2), 3⟩) ∧
        ((ofSides [⟨2, 2⟩] [⟨-1, 1⟩, ⟨3, 0⟩]).solve {}).map Report.outcome =
          .ok (.two ⟨-(3 / 2), some (-(3 / 2)), 3⟩ ⟨1, none, 3⟩) := by
    decide +kernel
  have same : (ofSides [⟨2, 2⟩] [⟨1, 1⟩, ⟨3, 0⟩]).reflected =
      ofSides [⟨2, 2⟩] [⟨-1, 1⟩, ⟨3, 0⟩] := rfl
  rw [same] at solved'
  rw [solved, solved'] at outcomes
  exact ⟨same, report, report', solved, solved', reflects, Except.ok.inj outcomes.1,
    Except.ok.inj outcomes.2⟩

end Equation

end Quadratics
