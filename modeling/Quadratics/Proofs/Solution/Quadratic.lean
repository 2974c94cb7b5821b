import Quadratics.Proofs.Binary64.Precision
import Quadratics.Proofs.Decimal.Nearest
import Quadratics.Solution.Solver

/-!
# What solving comes to

A discriminant that was computed is finite, and so are the coefficients and the
denominator `2a` of the formulas for the roots (`Discriminated`): the product `4ac` is
finite, so `4a` is, and that leaves room for `2a`.

The outcome follows the sign of the discriminant unless the formulas give a value that
is not finite.  `SolvedBy` lists the four cases with all that holds in each, and
`solveBy_solved` says that there are no others.  `Arises` does the same for all degrees
(`arises_of_outcome`), so that a property of outcomes is proved once for each case.
-/

namespace Quadratics

set_option autoImplicit false

/-! ## Roots -/

/-- The root made from a value is that value, without the sign of a zero. -/
theorem RealRoot.ofValue_eq {value : Binary64} {settings : Settings} {root : RealRoot}
    (made : RealRoot.ofValue value settings = .ok root) :
    root.value = value + 0 ∧ root.places = settings.places := by
  unfold RealRoot.ofValue at made
  dsimp only at made
  cases found : RealRoot.fractionBeside (value + 0) settings with
  | error misuse => rw [found] at made; cases made
  | ok fraction => rw [found] at made; cases made; exact ⟨rfl, rfl⟩

namespace Outcome

variable {first second value : Binary64} {settings : Settings} {outcome : Outcome}

theorem ofRoot_cases (solved : ofRoot value settings = .ok outcome) :
    (∃ root, outcome = .one root ∧ value.isFinite = true ∧
      RealRoot.ofValue value settings = .ok root) ∨
    (outcome = .tooLarge ∧ value.isFinite = false) := by
  unfold ofRoot at solved
  split at solved
  · rename_i finite
    cases made : RealRoot.ofValue value settings with
    | error misuse => rw [made] at solved; cases solved
    | ok root => rw [made] at solved; cases solved; exact .inl ⟨root, rfl, finite, rfl⟩
  · rename_i infinite
    cases solved
    exact .inr ⟨rfl, Bool.not_eq_true _ ▸ infinite⟩

theorem ofRoots_cases (solved : ofRoots first second settings = .ok outcome) :
    (∃ left right, outcome = .two left right ∧ first.isFinite = true ∧ second.isFinite = true ∧
      RealRoot.ofValue first settings = .ok left ∧
      RealRoot.ofValue second settings = .ok right) ∨
    (outcome = .tooLarge ∧ (first.isFinite = false ∨ second.isFinite = false)) := by
  unfold ofRoots at solved
  split at solved
  · rename_i finite
    cases made : RealRoot.ofValue first settings with
    | error misuse => rw [made] at solved; cases solved
    | ok left =>
      rw [made] at solved
      cases made' : RealRoot.ofValue second settings with
      | error misuse => rw [made'] at solved; cases solved
      | ok right =>
        rw [made'] at solved
        cases solved
        exact .inl ⟨left, right, rfl, finite.1, finite.2, rfl, rfl⟩
  · rename_i infinite
    cases solved
    refine .inr ⟨rfl, ?_⟩
    rwa [Classical.not_and_iff_not_or_not, Bool.not_eq_true, Bool.not_eq_true] at infinite

theorem ofConjugates_cases {real radicand denominator : Binary64} {places : Nat}
    {root : Bool → ConjugateRoot}
    (root_eq : root = fun negative => ⟨real, radicand, negative, denominator, places⟩) :
    (ofConjugates real radicand denominator places = .conjugates (root true) (root false) ∧
      (root false).realPart.isFinite = true ∧ (root false).imaginaryPart.isFinite = true) ∨
    (ofConjugates real radicand denominator places = .tooLarge ∧
      ((root false).realPart.isFinite = false ∨ (root false).imaginaryPart.isFinite = false)) := by
  subst root_eq
  unfold ofConjugates
  dsimp only
  split
  · rename_i finite
    exact .inl ⟨rfl, finite⟩
  · rename_i infinite
    refine .inr ⟨rfl, ?_⟩
    rwa [Classical.not_and_iff_not_or_not, Bool.not_eq_true, Bool.not_eq_true] at infinite

end Outcome

namespace Coefficients

variable {coefficients : Coefficients} {settings : Settings} {discriminant : Binary64}
  {outcome : Outcome}

/-! ## The discriminant -/

theorem discriminant?_eq_none_iff : coefficients.discriminant? = none ↔
    coefficients.linearSquared.isFinite = false ∨ coefficients.fourfoldProduct.isFinite = false ∨
      coefficients.difference.isFinite = false := by
  unfold discriminant?
  split
  · rename_i finite
    obtain ⟨difference, squared, product⟩ := finite
    refine iff_of_false (Option.some_ne_none _) ?_
    rw [difference, squared, product]
    decide
  · rename_i infinite
    refine iff_of_true rfl ?_
    by_contra finite
    simp only [not_or, Bool.not_eq_false] at finite
    exact infinite ⟨finite.2.2, finite.1, finite.2.1⟩

/-- The parts of a discriminant that was computed are finite. -/
theorem discriminant?_eq_some (found : coefficients.discriminant? = some discriminant) :
    coefficients.difference.isFinite = true ∧ coefficients.linearSquared.isFinite = true ∧
      coefficients.fourfoldProduct.isFinite = true ∧
      discriminant = if coefficients.partsAgree then 0 else coefficients.difference := by
  unfold discriminant? at found
  split at found
  · rename_i finite
    exact ⟨finite.1, finite.2.1, finite.2.2, (Option.some.inj found).symm⟩
  · cases found

/-- What holds where a discriminant was computed. -/
structure Discriminated (coefficients : Coefficients) (discriminant : Binary64) : Prop where
  /-- The coefficient of the square is finite. -/
  quadratic : coefficients.quadratic.isFinite = true
  /-- The coefficient of the unknown is finite. -/
  linear : coefficients.linear.isFinite = true
  /-- The constant is finite. -/
  constant : coefficients.constant.isFinite = true
  /-- The discriminant is finite. -/
  finite : discriminant.isFinite = true
  /-- A discriminant that vanishes has no sign. -/
  eq_zero : discriminant.Vanishes → discriminant = 0
  /-- The denominator of the formulas for the roots is finite. -/
  denominator : (2 * coefficients.quadratic).isFinite = true
  /-- The denominator is exact. -/
  toRat_denominator : (2 * coefficients.quadratic).toRat = 2 * coefficients.quadratic.toRat

theorem isFinite_agreementThreshold : agreementThreshold.isFinite = true ∧
    0 < agreementThreshold.toRat ∧ agreementThreshold.toRat ≤ 1 / 10 ^ 12 :=
  Decimal.toRat_nearest_trillionth

/-- The scale of the noise in a discriminant: the larger of its parts. -/
def computedScale (coefficients : Coefficients) : Binary64 :=
  Binary64.larger coefficients.linearSquared.abs coefficients.fourfoldProduct.abs

section Finite

variable (difference : coefficients.difference.isFinite = true)
  (squared : coefficients.linearSquared.isFinite = true)
  (product : coefficients.fourfoldProduct.isFinite = true)

include squared product in
/-- The scale and the tolerance are finite where the parts are. -/
theorem isFinite_computedScale : coefficients.computedScale.isFinite = true ∧
    coefficients.computedScale.toRat =
      max |coefficients.linearSquared.toRat| |coefficients.fourfoldProduct.toRat| ∧
    (coefficients.computedScale * agreementThreshold).isFinite = true := by
  obtain ⟨thresholdFinite, positive, small⟩ := isFinite_agreementThreshold
  obtain ⟨finite, same⟩ := Binary64.toRat_larger
    ((Binary64.isFinite_abs _).trans squared) ((Binary64.isFinite_abs _).trans product)
  rw [Binary64.toRat_abs, Binary64.toRat_abs] at same
  refine ⟨finite, same, Binary64.isFinite_mul_of_le_one finite thresholdFinite ?_⟩
  rw [abs_of_pos positive]
  exact small.trans (by norm_num)

include squared product in
theorem computedScale_nonneg : 0 ≤ coefficients.computedScale.toRat :=
  ((abs_nonneg _).trans (le_max_left _ _)).trans_eq
    (isFinite_computedScale squared product).2.1.symm

include difference squared product in
theorem partsAgree_iff : coefficients.partsAgree = true ↔
    |coefficients.difference.toRat| ≤ (coefficients.computedScale * agreementThreshold).toRat := by
  obtain ⟨-, -, toleranceFinite⟩ := isFinite_computedScale squared product
  rw [← Binary64.toRat_abs, partsAgree, decide_eq_true_iff,
    ← Binary64.le_iff_toRat ((Binary64.isFinite_abs _).trans difference) toleranceFinite]
  rfl

include squared product in
/-- Parts of a discriminant that are equal agree. -/
theorem partsAgree_of_vanishes (vanishes : coefficients.difference.Vanishes) :
    coefficients.partsAgree = true := by
  obtain ⟨thresholdFinite, positive, -⟩ := isFinite_agreementThreshold
  obtain ⟨finite, same, toleranceFinite⟩ := isFinite_computedScale squared product
  rw [partsAgree_iff vanishes.1 squared product,
    (Binary64.vanishes_iff_toRat vanishes.1).mp vanishes, abs_zero]
  refine (Binary64.mul_alike finite thresholdFinite).toRat_nonneg toleranceFinite ?_
  rw [same]
  exact mul_nonneg ((abs_nonneg _).trans (le_max_left _ _)) positive.le

end Finite

/-- **Where there is a discriminant, nothing that the formulas start from overflows.** -/
theorem discriminated (found : coefficients.discriminant? = some discriminant) :
    coefficients.Discriminated discriminant := by
  obtain ⟨difference, squared, product, same⟩ := discriminant?_eq_some found
  obtain ⟨fourfold, constant⟩ := Binary64.isFinite_of_mul product
  obtain ⟨denominator, exact⟩ := Binary64.isFinite_double fourfold
  refine
    { quadratic := (Binary64.isFinite_of_mul fourfold).2
      linear := (Binary64.isFinite_of_mul squared).1
      constant := constant
      finite := ?_
      eq_zero := fun vanishes => ?_
      denominator := denominator
      toRat_denominator := exact }
  · rw [same]
    split
    · exact Binary64.vanishes_zero.1
    · exact difference
  · by_cases agree : coefficients.partsAgree = true
    · rw [same, if_pos agree]
    · rw [same, if_neg agree] at vanishes
      exact absurd (partsAgree_of_vanishes squared product vanishes) agree

/-! ## The formulas for the roots -/

/-- The values that the formulas give: the roots, or the real and the imaginary part of
two conjugate roots. -/
def rootFormulas (coefficients : Coefficients) (discriminant : Binary64) : List Binary64 :=
  let negated := -coefficients.linear
  let denominator := 2 * coefficients.quadratic
  if 0 < discriminant then
    [(negated - discriminant.sqrt) / denominator, (negated + discriminant.sqrt) / denominator]
  else if discriminant < 0 then
    [negated / denominator, (-discriminant).sqrt / denominator]
  else [negated / denominator]

/-- What solving a quadratic with the given discriminant comes to. -/
inductive SolvedBy (coefficients : Coefficients) (discriminant : Binary64) (settings : Settings) :
    Outcome → Prop where
  /-- Two real roots, one for each sign of the square root. -/
  | two {first second : RealRoot} (positive : 0 < discriminant)
      (finite : ((-coefficients.linear - discriminant.sqrt) /
        (2 * coefficients.quadratic)).isFinite = true)
      (finite' : ((-coefficients.linear + discriminant.sqrt) /
        (2 * coefficients.quadratic)).isFinite = true)
      (made : RealRoot.ofValue ((-coefficients.linear - discriminant.sqrt) /
        (2 * coefficients.quadratic)) settings = .ok first)
      (made' : RealRoot.ofValue ((-coefficients.linear + discriminant.sqrt) /
        (2 * coefficients.quadratic)) settings = .ok second) :
      SolvedBy coefficients discriminant settings (.two first second)
  /-- One real root. -/
  | one {root : RealRoot} (zero : discriminant = 0)
      (finite : (-coefficients.linear / (2 * coefficients.quadratic)).isFinite = true)
      (made : RealRoot.ofValue (-coefficients.linear / (2 * coefficients.quadratic)) settings =
        .ok root) :
      SolvedBy coefficients discriminant settings (.one root)
  /-- Two conjugate roots. -/
  | conjugates {root : Bool → ConjugateRoot} (negative : discriminant < 0)
      (root_eq : root = fun negative => ⟨-coefficients.linear + 0, -discriminant, negative,
        2 * coefficients.quadratic, settings.places⟩)
      (real : (root false).realPart.isFinite = true)
      (imaginary : (root false).imaginaryPart.isFinite = true) :
      SolvedBy coefficients discriminant settings (.conjugates (root true) (root false))
  /-- A formula gives a value that is not finite. -/
  | tooLarge (beyond : ∃ value ∈ coefficients.rootFormulas discriminant, value.isFinite = false) :
      SolvedBy coefficients discriminant settings .tooLarge

namespace Discriminated

variable (discriminated : coefficients.Discriminated discriminant)
include discriminated

theorem denominator_nonzero (nonzero : ¬ coefficients.quadratic.Vanishes) :
    ¬ (2 * coefficients.quadratic).Vanishes := by
  rw [Binary64.vanishes_iff_toRat discriminated.denominator, discriminated.toRat_denominator]
  rw [Binary64.vanishes_iff_toRat discriminated.quadratic] at nonzero
  exact mul_ne_zero two_ne_zero nonzero

/-- **Solving by a discriminant comes to one of the four cases.** -/
theorem solveBy_solved (nonzero : ¬ coefficients.quadratic.Vanishes)
    (solved : coefficients.solveBy discriminant settings = .ok outcome) :
    coefficients.SolvedBy discriminant settings outcome := by
  have zeroFinite := Binary64.vanishes_zero.1
  unfold solveBy at solved
  dsimp only at solved
  split at solved
  · rename_i positive
    have formulas : coefficients.rootFormulas discriminant = _ := if_pos positive
    rcases Outcome.ofRoots_cases solved with
      ⟨first, second, rfl, finite, finite', made, made'⟩ | ⟨rfl, infinite⟩
    · exact .two positive finite finite' made made'
    · refine .tooLarge ?_
      rw [formulas]
      rcases infinite with infinite | infinite
      · exact ⟨_, List.mem_cons_self, infinite⟩
      · exact ⟨_, List.mem_cons_of_mem _ List.mem_cons_self, infinite⟩
  · rename_i notPositive
    split at solved
    · rename_i same
      obtain rfl := discriminated.eq_zero (Binary64.sameNumber_zero_iff.mp same)
      have formulas : coefficients.rootFormulas 0 =
          [-coefficients.linear / (2 * coefficients.quadratic)] := by
        simp only [rootFormulas, if_neg notPositive]
      rcases Outcome.ofRoot_cases solved with ⟨root, rfl, finite, made⟩ | ⟨rfl, infinite⟩
      · exact .one rfl finite made
      · refine .tooLarge ?_
        rw [formulas]
        exact ⟨_, List.mem_cons_self, infinite⟩
    · rename_i different
      have negative : discriminant < 0 := by
        rw [Binary64.sameNumber_zero_iff, Binary64.vanishes_iff_toRat discriminated.finite]
          at different
        rw [Binary64.lt_iff_toRat zeroFinite discriminated.finite, Binary64.toRat_zero]
          at notPositive
        rw [Binary64.lt_iff_toRat discriminated.finite zeroFinite, Binary64.toRat_zero]
        exact lt_of_le_of_ne (not_lt.mp notPositive) different
      have formulas : coefficients.rootFormulas discriminant = _ :=
        (if_neg notPositive).trans (if_pos negative)
      cases solved
      rcases Outcome.ofConjugates_cases rfl with ⟨same, real, imaginary⟩ | ⟨same, infinite⟩ <;>
        rw [same]
      · exact .conjugates negative rfl real imaginary
      · refine .tooLarge ?_
        rw [formulas]
        rcases infinite with infinite | infinite
        · refine ⟨_, List.mem_cons_self, ?_⟩
          have alike := Binary64.alike_add_zero (-coefficients.linear)
          have linear := (Binary64.isFinite_neg coefficients.linear).trans discriminated.linear
          rw [← Binary64.isFinite_div_congr alike ((Binary64.isFinite_add_zero _).trans linear)
            discriminated.denominator (discriminated.denominator_nonzero nonzero)]
          exact (Binary64.isFinite_add_zero _).symm.trans infinite
        · exact ⟨_, List.mem_cons_of_mem _ List.mem_cons_self, infinite⟩

end Discriminated

theorem solveQuadratic_cases (solved : coefficients.solveQuadratic settings = .ok outcome) :
    ¬ coefficients.quadratic.Vanishes ∧
      ((coefficients.discriminant? = none ∧ outcome = .tooLarge) ∨
        ∃ discriminant, coefficients.discriminant? = some discriminant ∧
          coefficients.SolvedBy discriminant settings outcome) := by
  unfold solveQuadratic at solved
  split at solved
  · cases solved
  · rename_i nonzero
    rw [Binary64.sameNumber_zero_iff] at nonzero
    refine ⟨nonzero, ?_⟩
    cases found : coefficients.discriminant? with
    | none =>
      rw [found] at solved
      cases solved
      exact .inl ⟨rfl, rfl⟩
    | some discriminant =>
      rw [found] at solved
      exact .inr ⟨discriminant, rfl, (discriminated found).solveBy_solved nonzero solved⟩

theorem solveLinear_cases (solved : coefficients.solveLinear settings = .ok outcome) :
    ¬ coefficients.linear.Vanishes ∧
      ((∃ root, outcome = .one root ∧
          (-coefficients.constant / coefficients.linear).isFinite = true ∧
          RealRoot.ofValue (-coefficients.constant / coefficients.linear) settings = .ok root) ∨
        (outcome = .tooLarge ∧
          (-coefficients.constant / coefficients.linear).isFinite = false)) := by
  unfold solveLinear at solved
  split at solved
  · cases solved
  · rename_i nonzero
    rw [Binary64.sameNumber_zero_iff] at nonzero
    exact ⟨nonzero, Outcome.ofRoot_cases solved⟩

/-- How an outcome arises, by the degree. -/
inductive Arises (coefficients : Coefficients) (settings : Settings) : UInt32 → Outcome → Prop where
  /-- A constant tells whether it is zero. -/
  | constant : Arises coefficients settings 0 coefficients.solveConstant
  /-- The root of a linear polynomial is one quotient. -/
  | linear {root : RealRoot} (nonzero : ¬ coefficients.linear.Vanishes)
      (finite : (-coefficients.constant / coefficients.linear).isFinite = true)
      (made : RealRoot.ofValue (-coefficients.constant / coefficients.linear) settings = .ok root) :
      Arises coefficients settings 1 (.one root)
  /-- That quotient may be too large. -/
  | linearTooLarge (nonzero : ¬ coefficients.linear.Vanishes)
      (infinite : (-coefficients.constant / coefficients.linear).isFinite = false) :
      Arises coefficients settings 1 .tooLarge
  /-- The discriminant may be too large. -/
  | quadraticTooLarge (nonzero : ¬ coefficients.quadratic.Vanishes)
      (missing : coefficients.discriminant? = none) : Arises coefficients settings 2 .tooLarge
  /-- The discriminant decides about a quadratic polynomial. -/
  | quadratic {discriminant : Binary64} {outcome : Outcome}
      (nonzero : ¬ coefficients.quadratic.Vanishes)
      (found : coefficients.discriminant? = some discriminant)
      (solvedBy : coefficients.SolvedBy discriminant settings outcome) :
      Arises coefficients settings 2 outcome
  /-- There are no formulas for higher degrees. -/
  | unsupported {degree : UInt32} (high : 2 < degree) :
      Arises coefficients settings degree .unsupported

/-- **An outcome arises in one of these ways.** -/
theorem arises_of_outcome {degree : UInt32}
    (solved : coefficients.outcome degree settings = .ok outcome) :
    coefficients.Arises settings degree outcome := by
  unfold Coefficients.outcome at solved
  split at solved
  · rename_i isZero
    subst isZero
    cases solved
    exact .constant
  · split at solved
    · rename_i isOne
      subst isOne
      rcases solveLinear_cases solved with
        ⟨nonzero, ⟨root, rfl, finite, made⟩ | ⟨rfl, infinite⟩⟩
      · exact .linear nonzero finite made
      · exact .linearTooLarge nonzero infinite
    · split at solved
      · rename_i isTwo
        subst isTwo
        rcases solveQuadratic_cases solved with
          ⟨nonzero, ⟨missing, rfl⟩ | ⟨discriminant, found, solvedBy⟩⟩
        · exact .quadraticTooLarge nonzero missing
        · exact .quadratic nonzero found solvedBy
      · rename_i notZero notOne notTwo
        cases solved
        refine .unsupported ?_
        simp only [UInt32.lt_iff_toNat_lt, ← UInt32.toNat_inj, UInt32.reduceToNat]
          at notZero notOne notTwo ⊢
        omega

/-- Solving a quadratic follows its discriminant. -/
theorem solve_two (nonzero : ¬ coefficients.quadratic.Vanishes) :
    coefficients.solve 2 settings =
      (match coefficients.discriminant? with
        | some discriminant => coefficients.solveBy discriminant settings
        | none => .ok .tooLarge).map fun outcome =>
          ⟨2, coefficients, coefficients.discriminant?, outcome, settings⟩ := by
  rw [← Binary64.sameNumber_zero_iff] at nonzero
  show (coefficients.solveQuadratic settings).map _ = _
  rw [solveQuadratic, if_neg nonzero]
  rfl

/-- What solving a quadratic comes to where there is a discriminant. -/
theorem solve_eq_of_discriminant {discriminant : Binary64}
    (nonzero : ¬ coefficients.quadratic.Vanishes)
    (found : coefficients.discriminant? = some discriminant) :
    coefficients.solve 2 settings = (coefficients.solveBy discriminant settings).map fun outcome =>
      ⟨2, coefficients, some discriminant, outcome, settings⟩ := by
  rw [solve_two nonzero, found]

/-- Where there is no discriminant, it is too large. -/
theorem solve_eq_of_none (nonzero : ¬ coefficients.quadratic.Vanishes)
    (missing : coefficients.discriminant? = none) :
    coefficients.solve 2 settings = .ok ⟨2, coefficients, none, .tooLarge, settings⟩ := by
  rw [solve_two nonzero, missing]
  rfl

/-- What a report holds. -/
theorem outcome_of_solve {degree : UInt32} {report : Report}
    (solved : coefficients.solve degree settings = .ok report) :
    ∃ outcome, coefficients.outcome degree settings = .ok outcome ∧
      report = ⟨degree, coefficients, if degree = 2 then coefficients.discriminant? else none,
        outcome, settings⟩ := by
  unfold solve at solved
  dsimp only at solved
  cases found : coefficients.outcome degree settings with
  | error misuse => rw [found] at solved; cases solved
  | ok outcome => rw [found] at solved; cases solved; exact ⟨outcome, rfl, rfl⟩

/-- A quadratic is within reach where its formulas give finite values. -/
theorem ne_tooLarge_of_solve {report : Report}
    (solved : coefficients.solve 2 settings = .ok report)
    (found : coefficients.discriminant? = some discriminant)
    (finite : ∀ value ∈ coefficients.rootFormulas discriminant, value.isFinite = true) :
    report.outcome ≠ .tooLarge := by
  obtain ⟨outcome, isOutcome, rfl⟩ := outcome_of_solve solved
  rintro same
  cases same
  obtain ⟨-, ⟨missing, -⟩ | ⟨_, isSome, solvedBy⟩⟩ := solveQuadratic_cases isOutcome
  · rw [found] at missing
    cases missing
  · rw [found] at isSome
    cases isSome
    cases solvedBy with
    | tooLarge beyond =>
      obtain ⟨value, member, infinite⟩ := beyond
      rw [finite value member] at infinite
      cases infinite

end Coefficients

end Quadratics
