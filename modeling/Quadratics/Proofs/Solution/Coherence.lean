import Quadratics.Proofs.Solution.Quadratic
import Quadratics.Proofs.Solution.Safety

/-!
# Reports hang together

The parts of a report are found at different places: the discriminant by its formula,
the outcome by comparisons with it, each root by a division, and what is not finite is
caught here and there.  `Report.Coherent` lists what the parts promise each other, and
`Coefficients.solve_coherent` says that the promises are kept for all coefficients, the
infinities and what is no number among them.
-/

namespace Quadratics

set_option autoImplicit false

/-- The parts of a report agree. -/
structure Report.Coherent (report : Report) : Prop where
  /-- Only a quadratic has a discriminant, and it is finite. -/
  discriminant_some : ∀ discriminant, report.discriminant = some discriminant →
    report.degree = 2 ∧ discriminant.isFinite = true
  /-- A quadratic is without a discriminant where a part of it is not finite. -/
  discriminant_none : report.degree = 2 → (report.discriminant = none ↔
    (report.coefficients.linear * report.coefficients.linear).isFinite = false ∨
    (4 * report.coefficients.quadratic * report.coefficients.constant).isFinite = false ∨
    (report.coefficients.linear * report.coefficients.linear -
      4 * report.coefficients.quadratic * report.coefficients.constant).isFinite = false)
  /-- A quadratic without a discriminant is too large. -/
  tooLarge_of_none : report.degree = 2 → report.discriminant = none → report.outcome = .tooLarge
  /-- Two real roots come from a positive discriminant.  They are finite, none is a
  negative zero, and the sign of the leading coefficient tells the smaller one. -/
  two : ∀ first second, report.outcome = .two first second →
    report.realRoots = [first.value, second.value] ∧
    (∃ discriminant, report.discriminant = some discriminant ∧ 0 < discriminant) ∧
    (first.value.isFinite = true ∧ first.value ≠ -0) ∧
    (second.value.isFinite = true ∧ second.value ≠ -0) ∧
    (0 < report.coefficients.quadratic → first.value ≤ second.value) ∧
    (report.coefficients.quadratic < 0 → second.value ≤ first.value)
  /-- One root comes from a linear equation or a discriminant of zero. -/
  one : ∀ root, report.outcome = .one root →
    report.realRoots = [root.value] ∧
    (report.degree = 1 ∨ report.degree = 2 ∧ report.discriminant = some 0) ∧
    root.value.isFinite = true ∧ root.value ≠ -0
  /-- No other outcome has real roots. -/
  realRoots_eq_nil : (∀ root, report.outcome ≠ .one root) →
    (∀ first second, report.outcome ≠ .two first second) → report.realRoots = []
  /-- Conjugate roots come from a negative discriminant.  Both keep the discriminant
  without its sign, the first one subtracts its imaginary part, and their values are
  finite and differ in the sign of the imaginary part alone. -/
  conjugates : ∀ first second, report.outcome = .conjugates first second →
    (∃ discriminant, report.discriminant = some discriminant ∧ discriminant < 0 ∧
      first.radicand = -discriminant ∧ second.radicand = -discriminant) ∧
    (first.negative = true ∧ second.negative = false) ∧
    (first.realPart.isFinite = true ∧ first.imaginaryPart.isFinite = true) ∧
    (second.realPart.isFinite = true ∧ second.imaginaryPart.isFinite = true) ∧
    first.realPart = second.realPart ∧ first.imaginaryPart = -second.imaginaryPart
  /-- With a discriminant the outcome is too large only where a formula for a root gives
  a value that is not finite. -/
  tooLarge : ∀ discriminant, report.discriminant = some discriminant →
    report.outcome = .tooLarge →
    ∃ value ∈ report.coefficients.rootFormulas discriminant, value.isFinite = false
  /-- A constant vanishes everywhere or nowhere. -/
  constant : report.degree = 0 → report.outcome = .everyNumber ∨ report.outcome = .noNumber
  /-- A linear equation has one root, or it is too large. -/
  linear : report.degree = 1 → (∃ root, report.outcome = .one root) ∨ report.outcome = .tooLarge
  /-- Just the degrees above two are unsupported. -/
  unsupported : report.outcome = .unsupported ↔ 2 < report.degree

/-- Only an outcome of one or two real roots has any. -/
theorem Report.realRoots_of_ne {report : Report} (notOne : ∀ root, report.outcome ≠ .one root)
    (notTwo : ∀ first second, report.outcome ≠ .two first second) : report.realRoots = [] := by
  unfold realRoots
  split
  · rename_i root isOne
    exact absurd isOne (notOne root)
  · rename_i first second isTwo
    exact absurd isTwo (notTwo first second)
  · rfl

namespace Report.Coherent

variable {report : Report}

/-- The real roots are finite, and none is a negative zero. -/
theorem realRoots_finite (coherent : report.Coherent) {value : Binary64}
    (member : value ∈ report.realRoots) : value.isFinite = true ∧ value ≠ -0 := by
  unfold realRoots at member
  split at member
  · rename_i root isOne
    obtain rfl := List.mem_singleton.mp member
    exact (coherent.one root isOne).2.2
  · rename_i first second isTwo
    obtain ⟨-, -, firstFinite, secondFinite, -⟩ := coherent.two first second isTwo
    rcases List.mem_pair.mp member with rfl | rfl
    · exact firstFinite
    · exact secondFinite
  · cases member

end Report.Coherent

/-- The value of a root that was made from a finite value. -/
theorem RealRoot.ofValue_finite {value : Binary64} {settings : Settings} {root : RealRoot}
    (finite : value.isFinite = true) (made : RealRoot.ofValue value settings = .ok root) :
    root.value.isFinite = true ∧ root.value ≠ -0 := by
  rw [(RealRoot.ofValue_eq made).1]
  exact ⟨(Binary64.isFinite_add_zero value).trans finite, Binary64.add_zero_ne_neg_zero value⟩

/-- Does the outcome come from a discriminant that is not zero? -/
def Outcome.isSplit : Outcome → Bool
  | .two _ _ | .conjugates _ _ => true
  | _ => false

namespace Coefficients

variable {coefficients : Coefficients} {settings : Settings} {discriminant : Binary64}
  {outcome : Outcome}

/-! ## Degrees other than two -/

/-- Without a discriminant nothing has to agree with it. -/
theorem coherent_of_ne_two {degree : UInt32} (notTwo : degree ≠ 2)
    (whole : outcome.isSplit = false)
    (one : ∀ root, outcome = .one root →
      degree = 1 ∧ root.value.isFinite = true ∧ root.value ≠ -0)
    (constant : degree = 0 → outcome = .everyNumber ∨ outcome = .noNumber)
    (linear : degree = 1 → (∃ root, outcome = .one root) ∨ outcome = .tooLarge)
    (unsupported : outcome = .unsupported ↔ 2 < degree) :
    Report.Coherent ⟨degree, coefficients, none, outcome, settings⟩ where
  discriminant_some := by rintro _ ⟨⟩
  discriminant_none := fun two => absurd two notTwo
  tooLarge_of_none := fun two => absurd two notTwo
  two := by
    rintro first second same
    cases same
    cases whole
  one := fun root isOne => by
    cases isOne
    exact ⟨rfl, .inl (one root rfl).1, (one root rfl).2⟩
  realRoots_eq_nil := Report.realRoots_of_ne
  conjugates := by
    rintro first second same
    cases same
    cases whole
  tooLarge := by rintro _ ⟨⟩
  constant := constant
  linear := linear
  unsupported := unsupported

theorem coherent_constant :
    Report.Coherent ⟨0, coefficients, none, coefficients.solveConstant, settings⟩ := by
  unfold solveConstant
  split
  · exact coherent_of_ne_two (by decide) rfl (by rintro _ ⟨⟩) (fun _ => .inl rfl)
      (fun one => absurd one (by decide)) (iff_of_false (by rintro ⟨⟩) (by decide))
  · exact coherent_of_ne_two (by decide) rfl (by rintro _ ⟨⟩) (fun _ => .inr rfl)
      (fun one => absurd one (by decide)) (iff_of_false (by rintro ⟨⟩) (by decide))

theorem coherent_linear {root : RealRoot}
    (finite : (-coefficients.constant / coefficients.linear).isFinite = true)
    (made : RealRoot.ofValue (-coefficients.constant / coefficients.linear) settings = .ok root) :
    Report.Coherent ⟨1, coefficients, none, .one root, settings⟩ :=
  coherent_of_ne_two (by decide) rfl
    (by rintro _ ⟨⟩; exact ⟨rfl, RealRoot.ofValue_finite finite made⟩)
    (fun zero => absurd zero (by decide)) (fun _ => .inl ⟨root, rfl⟩)
    (iff_of_false (by rintro ⟨⟩) (by decide))

theorem coherent_linearTooLarge : Report.Coherent ⟨1, coefficients, none, .tooLarge, settings⟩ :=
  coherent_of_ne_two (by decide) rfl (by rintro _ ⟨⟩) (fun zero => absurd zero (by decide))
    (fun _ => .inr rfl) (iff_of_false (by rintro ⟨⟩) (by decide))

theorem coherent_unsupported {degree : UInt32} (high : 2 < degree) :
    Report.Coherent ⟨degree, coefficients, none, .unsupported, settings⟩ := by
  have notBelow : ∀ low : UInt32, low ≤ 2 → degree ≠ low := by
    rintro low below rfl
    exact absurd high (UInt32.not_lt.mpr below)
  exact coherent_of_ne_two (notBelow 2 (by decide)) rfl (by rintro _ ⟨⟩)
    (fun zero => absurd zero (notBelow 0 (by decide)))
    (fun one => absurd one (notBelow 1 (by decide))) (iff_of_true rfl high)

/-! ## Quadratics -/

/-- The sign of the leading coefficient tells which of two real roots is smaller. -/
theorem Discriminated.roots_ordered (discriminated : coefficients.Discriminated discriminant)
    (positive : 0 < discriminant)
    (finite : ((-coefficients.linear - discriminant.sqrt) /
      (2 * coefficients.quadratic)).isFinite = true)
    (finite' : ((-coefficients.linear + discriminant.sqrt) /
      (2 * coefficients.quadratic)).isFinite = true) :
    (0 < coefficients.quadratic.toRat →
      ((-coefficients.linear - discriminant.sqrt) / (2 * coefficients.quadratic)).toRat ≤
        ((-coefficients.linear + discriminant.sqrt) / (2 * coefficients.quadratic)).toRat) ∧
    (coefficients.quadratic.toRat < 0 →
      ((-coefficients.linear + discriminant.sqrt) / (2 * coefficients.quadratic)).toRat ≤
        ((-coefficients.linear - discriminant.sqrt) / (2 * coefficients.quadratic)).toRat) := by
  have rootNonneg := Binary64.toRat_nonneg (Binary64.negative_sqrt discriminated.finite positive)
  have dividends : (-coefficients.linear - discriminant.sqrt).toRat ≤
      (-coefficients.linear + discriminant.sqrt).toRat := by
    refine Binary64.toRat_add_mono (Binary64.isFinite_of_div finite)
      (Binary64.isFinite_of_div finite') ?_
    show (-discriminant.sqrt).toRat ≤ discriminant.sqrt.toRat
    rw [Binary64.toRat_neg]
    linarith
  have divisor := discriminated.toRat_denominator
  have nonzero : coefficients.quadratic.toRat ≠ 0 → ¬ (2 * coefficients.quadratic).Vanishes :=
    fun nonzero => discriminated.denominator_nonzero
      fun vanishes => nonzero ((Binary64.vanishes_iff_toRat discriminated.quadratic).mp vanishes)
  constructor
  · intro leading
    refine Binary64.toRat_div_mono discriminated.denominator (nonzero leading.ne') finite finite' ?_
    rw [divisor]
    exact div_le_div_of_nonneg_right dividends (by linarith)
  · intro leading
    refine Binary64.toRat_div_mono discriminated.denominator (nonzero leading.ne) finite' finite ?_
    rw [divisor]
    exact div_le_div_of_nonpos_of_le (by linarith) dividends

/-- The parts of two conjugate roots are the same but for the sign of the imaginary one. -/
theorem conjugate_parts {root : Bool → ConjugateRoot} {real radicand denominator : Binary64}
    {places : Nat}
    (root_eq : root = fun negative => ⟨real, radicand, negative, denominator, places⟩) :
    (root true).realPart = (root false).realPart ∧
      (root true).imaginaryPart = -(root false).imaginaryPart := by
  subst root_eq
  exact ⟨rfl, rfl⟩

theorem coherent_tooLarge (missing : coefficients.discriminant? = none) :
    Report.Coherent ⟨2, coefficients, none, .tooLarge, settings⟩ where
  discriminant_some := by rintro _ ⟨⟩
  discriminant_none := fun _ => iff_of_true rfl (discriminant?_eq_none_iff.mp missing)
  tooLarge_of_none := fun _ _ => rfl
  two := by rintro _ _ ⟨⟩
  one := by rintro _ ⟨⟩
  realRoots_eq_nil := Report.realRoots_of_ne
  conjugates := by rintro _ _ ⟨⟩
  tooLarge := by rintro _ ⟨⟩
  constant := fun zero => absurd zero (show ¬ (2 : UInt32) = 0 by decide)
  linear := fun one => absurd one (show ¬ (2 : UInt32) = 1 by decide)
  unsupported := iff_of_false (by rintro ⟨⟩) (show ¬ (2 : UInt32) < 2 by decide)

/-- A report on a quadratic is coherent where its outcome agrees with its discriminant. -/
theorem coherent_of_solvedBy
    (found : coefficients.discriminant? = some discriminant)
    (solved : coefficients.SolvedBy discriminant settings outcome) :
    Report.Coherent ⟨2, coefficients, some discriminant, outcome, settings⟩ where
  discriminant_some := by
    rintro _ ⟨⟩
    exact ⟨rfl, (discriminated found).finite⟩
  discriminant_none := fun _ => by
    refine iff_of_false (Option.some_ne_none _) fun infinite => ?_
    rw [discriminant?_eq_none_iff.mpr infinite] at found
    cases found
  tooLarge_of_none := by rintro _ ⟨⟩
  two := by
    rintro first second same
    cases same
    cases solved with
    | two positive finite finite' made made' =>
      obtain ⟨firstFinite, firstUnsigned⟩ := RealRoot.ofValue_finite finite made
      obtain ⟨secondFinite, secondUnsigned⟩ := RealRoot.ofValue_finite finite' made'
      have discriminated := discriminated found
      obtain ⟨up, down⟩ := discriminated.roots_ordered positive finite finite'
      refine ⟨rfl, ⟨_, rfl, positive⟩, ⟨firstFinite, firstUnsigned⟩,
        ⟨secondFinite, secondUnsigned⟩, ?_, ?_⟩
      · intro leading
        rw [Binary64.lt_iff_toRat Binary64.vanishes_zero.1 discriminated.quadratic,
          Binary64.toRat_zero] at leading
        rw [Binary64.le_iff_toRat firstFinite secondFinite, (RealRoot.ofValue_eq made).1,
          (RealRoot.ofValue_eq made').1, Binary64.toRat_add_zero, Binary64.toRat_add_zero]
        exact up leading
      · intro leading
        rw [Binary64.lt_iff_toRat discriminated.quadratic Binary64.vanishes_zero.1,
          Binary64.toRat_zero] at leading
        rw [Binary64.le_iff_toRat secondFinite firstFinite, (RealRoot.ofValue_eq made).1,
          (RealRoot.ofValue_eq made').1, Binary64.toRat_add_zero, Binary64.toRat_add_zero]
        exact down leading
  one := by
    rintro root same
    cases same
    cases solved with
    | one zero finite made =>
      exact ⟨rfl, .inr ⟨rfl, congrArg some zero⟩, RealRoot.ofValue_finite finite made⟩
  realRoots_eq_nil := Report.realRoots_of_ne
  conjugates := by
    rintro first second same
    cases same
    cases solved with
    | @conjugates root negative root_eq real imaginary =>
      obtain ⟨sameReal, oppositeImaginary⟩ := conjugate_parts root_eq
      rw [sameReal, oppositeImaginary, Binary64.isFinite_neg]
      refine ⟨⟨_, rfl, negative, ?_⟩, ?_, ⟨real, imaginary⟩, ⟨real, imaginary⟩, rfl, rfl⟩ <;>
        subst root_eq <;> exact ⟨rfl, rfl⟩
  tooLarge := by
    rintro _ ⟨⟩ same
    cases same
    cases solved with
    | tooLarge beyond => exact beyond
  constant := fun zero => absurd zero (show ¬ (2 : UInt32) = 0 by decide)
  linear := fun one => absurd one (show ¬ (2 : UInt32) = 1 by decide)
  unsupported := by
    refine iff_of_false ?_ (show ¬ (2 : UInt32) < 2 by decide)
    rintro same
    cases same
    cases solved

/-! ## All degrees -/

/-- A report that solving gives is coherent. -/
theorem coherent_of_solve {degree : UInt32} {report : Report}
    (solved : coefficients.solve degree settings = .ok report) : report.Coherent := by
  obtain ⟨outcome, isOutcome, rfl⟩ := outcome_of_solve solved
  cases arises_of_outcome isOutcome with
  | constant => exact coherent_constant
  | linear _ finite made => exact coherent_linear finite made
  | linearTooLarge => exact coherent_linearTooLarge
  | quadraticTooLarge _ missing =>
    rw [if_pos rfl, missing]
    exact coherent_tooLarge missing
  | quadratic _ found solvedBy =>
    rw [if_pos rfl, found]
    exact coherent_of_solvedBy found solvedBy
  | unsupported high =>
    rw [if_neg (UInt32.ne_of_lt high).symm]
    exact coherent_unsupported high

/-- **Solving gives a coherent report** whatever the coefficients are, if only the promises
asked of the caller are kept. -/
theorem solve_coherent {degree : UInt32} (allowed : 1 ≤ settings.denominatorBound)
    (linear : degree = 1 → coefficients.linear.sameNumber 0 = false)
    (quadratic : degree = 2 → coefficients.quadratic.sameNumber 0 = false) :
    ∃ report, coefficients.solve degree settings = .ok report ∧
      report.degree = degree ∧ report.coefficients = coefficients ∧ report.settings = settings ∧
      report.Coherent ∧ ∀ value ∈ report.realRoots, value.isFinite = true ∧ value ≠ -0 := by
  obtain ⟨report, solved, isDegree, -⟩ := solve_succeeds allowed linear quadratic
  have coherent := coherent_of_solve solved
  obtain ⟨outcome, -, report_eq⟩ := outcome_of_solve solved
  refine ⟨report, solved, isDegree, ?_, ?_, coherent, fun value => coherent.realRoots_finite⟩ <;>
    rw [report_eq]

/-- An infinite leading coefficient leaves a quadratic without a discriminant. -/
theorem solve_coherent_infinity :
    ∃ report, solve ⟨.infinity false, 0, .nan false⟩ 2 {} = .ok report ∧
      report.discriminant = none ∧ report.outcome = .tooLarge ∧ report.realRoots = [] := by
  obtain ⟨report, solved, isDegree, same, -, coherent, -⟩ :=
    @solve_coherent ⟨.infinity false, 0, .nan false⟩ {} 2 (by decide) (by decide)
      (fun _ => by decide +kernel)
  have missing := (coherent.discriminant_none isDegree).mpr
    (.inr (.inl (by rw [same]; decide +kernel)))
  have tooLarge := coherent.tooLarge_of_none isDegree missing
  refine ⟨report, solved, missing, tooLarge, coherent.realRoots_eq_nil ?_ ?_⟩ <;>
    simp [tooLarge]

end Coefficients

end Quadratics
