import Quadratics.Equation.Printer
import Quadratics.Proofs.Solution.Safety
import Quadratics.Proofs.Solution.Quadratic
import Quadratics.Proofs.Solution.ShownNumbers

/-!
# Where overflow is shown

An equation that was read has finite coefficients, so its reduced form is written without a
word for what is not finite (`Equation.not_showsOverflow_reduce`), and every number that its
report shows is finite (`Coefficients.finite_shownNumbers`).

What a report shows is rounded to places first, though, and that may overflow.  Just then
the report shows an infinity, or what is no number (`Equation.showsOverflow_iff`), and it
cannot happen for up to `safePlaces` places with numbers that leave eight places of room.
It does happen with the settings that everybody has: `solve_shows_infinity` is the equation
whose root is `10 ^ 308`.
-/

namespace Quadratics

set_option autoImplicit false

/-! ## The reduced form -/

theorem Term.not_showsOverflow_text {term : Term} (finite : term.value.isFinite = true) :
    ¬ ShowsOverflow term.text.toList := by
  rw [Term.text, String.append_assoc, showsOverflow_append_delimited (by decide), not_or]
  refine ⟨?_, not_showsOverflow_toString _⟩
  rw [showsOverflow_text_iff, Binary64.isFinite_add_zero, finite]
  exact Bool.true_eq_false.mp

namespace Equation

theorem not_showsOverflow_laterText {term : Term} (finite : term.value.isFinite = true) :
    ∀ text : String, ¬ ShowsOverflow text.toList →
      ¬ ShowsOverflow (text ++ laterText term).toList := by
  intro text plain
  have negFinite : term.neg.value.isFinite = true := (Binary64.isFinite_neg _).trans finite
  unfold laterText
  split
  · rw [showsOverflow_append_delimited (by decide), not_or]
    exact ⟨plain, Term.not_showsOverflow_text negFinite⟩
  · rw [showsOverflow_append_delimited (by decide), not_or]
    exact ⟨plain, Term.not_showsOverflow_text finite⟩

theorem not_showsOverflow_sideText {terms : List Term}
    (finite : ∀ term ∈ terms, term.value.isFinite = true) :
    ¬ ShowsOverflow (sideText terms).toList := by
  have folded : ∀ (later : List Term), (∀ term ∈ later, term.value.isFinite = true) →
      ∀ text : String, ¬ ShowsOverflow text.toList →
        ¬ ShowsOverflow (later.foldl (fun text term => text ++ laterText term) text).toList := by
    intro later
    induction later with
    | nil => exact fun _ _ plain => plain
    | cons term later ih =>
      intro finite text plain
      rw [List.forall_mem_cons] at finite
      exact ih finite.2 _ (not_showsOverflow_laterText finite.1 text plain)
  match terms, finite with
  | [], _ => exact not_showsOverflow_ofList (by decide)
  | first :: later, finite =>
    rw [List.forall_mem_cons] at finite
    exact folded later finite.2 _ (Term.not_showsOverflow_text finite.1)

/-- **An equation of finite terms is written without a word for what is not finite.** -/
theorem not_showsOverflow_text {equation : Equation}
    (left : ∀ term ∈ equation.left, term.value.isFinite = true)
    (right : ∀ term ∈ equation.right, term.value.isFinite = true) :
    ¬ ShowsOverflow equation.text.toList := by
  rw [text, String.append_assoc, showsOverflow_append_delimited (by decide), not_or]
  exact ⟨not_showsOverflow_sideText left, not_showsOverflow_sideText right⟩

end Equation

/-! ## The numbers of a report -/

variable {settings : Settings}

/-- The numbers are finite, and they are shown to the places asked for. -/
def FiniteNumbers (settings : Settings) (numbers : List (Binary64 × Nat)) : Prop :=
  ∀ number ∈ numbers, number.1.isFinite = true ∧ number.2 = settings.places

theorem FiniteNumbers.nil : FiniteNumbers settings [] :=
  fun _ member => absurd member List.not_mem_nil

theorem FiniteNumbers.append {numbers others : List (Binary64 × Nat)}
    (finite : FiniteNumbers settings numbers) (othersFinite : FiniteNumbers settings others) :
    FiniteNumbers settings (numbers ++ others) := by
  intro number member
  rcases List.mem_append.mp member with member | member
  · exact finite number member
  · exact othersFinite number member

theorem FiniteNumbers.cons {number : Binary64} {others : List (Binary64 × Nat)}
    (finite : number.isFinite = true) (othersFinite : FiniteNumbers settings others) :
    FiniteNumbers settings ((number, settings.places) :: others) :=
  List.forall_mem_cons.mpr ⟨⟨finite, rfl⟩, othersFinite⟩

theorem RealRoot.finite_shownNumbers {value : Binary64} {root : RealRoot}
    (finite : value.isFinite = true) (made : RealRoot.ofValue value settings = .ok root) :
    FiniteNumbers settings root.shownNumbers := by
  obtain ⟨same, places⟩ := RealRoot.ofValue_eq made
  rw [shownNumbers, same, places]
  exact .cons ((Binary64.isFinite_add_zero value).trans finite) .nil

theorem ConjugateRoot.finite_shownNumbers {real radicand denominator : Binary64}
    (negative : Bool) (realFinite : real.isFinite = true)
    (radicandFinite : radicand.isFinite = true) (denominatorFinite : denominator.isFinite = true) :
    FiniteNumbers settings
      (ConjugateRoot.shownNumbers ⟨real, radicand, negative, denominator, settings.places⟩) := by
  refine .append ?_ (.cons radicandFinite (.cons denominatorFinite .nil))
  split
  · exact .nil
  · exact .cons realFinite .nil

namespace Coefficients

variable {coefficients : Coefficients}

theorem SolvedBy.finite_shownNumbers {discriminant : Binary64} {outcome : Outcome}
    (solved : coefficients.SolvedBy discriminant settings outcome)
    (discriminated : coefficients.Discriminated discriminant) :
    FiniteNumbers settings outcome.shownNumbers := by
  cases solved with
  | two _ finite finite' made made' =>
    exact (RealRoot.finite_shownNumbers finite made).append
      (RealRoot.finite_shownNumbers finite' made')
  | one _ finite made => exact RealRoot.finite_shownNumbers finite made
  | conjugates _ root_eq =>
    subst root_eq
    have real : (-coefficients.linear + 0).isFinite = true := by
      rw [Binary64.isFinite_add_zero, Binary64.isFinite_neg, discriminated.linear]
    have radicand := (Binary64.isFinite_neg discriminant).trans discriminated.finite
    exact (ConjugateRoot.finite_shownNumbers true real radicand discriminated.denominator).append
      (ConjugateRoot.finite_shownNumbers false real radicand discriminated.denominator)
  | tooLarge => exact .nil

/-- The numbers of an outcome are finite, whatever the coefficients are. -/
theorem finite_outcome {degree : UInt32} {outcome : Outcome}
    (solved : coefficients.outcome degree settings = .ok outcome) :
    FiniteNumbers settings outcome.shownNumbers := by
  cases arises_of_outcome solved with
  | constant =>
    unfold solveConstant
    split <;> exact .nil
  | linear _ finite made => exact RealRoot.finite_shownNumbers finite made
  | quadratic _ found solvedBy => exact solvedBy.finite_shownNumbers (discriminated found)
  | linearTooLarge | quadraticTooLarge | unsupported => exact .nil

/-- **Every number that a report shows is finite** where the coefficients are. -/
theorem finite_shownNumbers {degree : UInt32} {report : Report}
    (quadratic : coefficients.quadratic.isFinite = true)
    (linear : coefficients.linear.isFinite = true)
    (constant : coefficients.constant.isFinite = true)
    (solved : coefficients.solve degree settings = .ok report) :
    FiniteNumbers settings report.shownNumbers := by
  obtain ⟨outcome, found, rfl⟩ := outcome_of_solve solved
  refine .append (.append ?_ ?_) (finite_outcome found)
  · show FiniteNumbers settings (if settings.verbose then _ else [])
    split
    · exact .cons quadratic (.cons linear (.cons constant .nil))
    · exact .nil
  · unfold Report.shownDiscriminant
    dsimp only
    split
    · cases isSome : coefficients.discriminant? with
      | none => exact .nil
      | some discriminant => exact .cons (discriminated isSome).finite .nil
    · exact .nil

end Coefficients

/-! ## Equations that were read -/

/-- A finite number with eight places of room does not overflow at few places. -/
theorem Binary64.isFinite_roundTo_of_room {x : Binary64} {places : Nat}
    (few : places ≤ Binary64.safePlaces) (finite : x.isFinite = true)
    (broken : x.looksWhole = false) (room : |x.toRat| * 10 ^ 8 < Binary64.overflowBound) :
    (x.roundTo places).isFinite = true :=
  Binary64.isFinite_roundTo_of_small few finite
    (Binary64.abs_toRat_lt_of_not_looksWhole finite broken room)

namespace Equation

/-- **The reduced form of an equation that was read shows no overflow.** -/
theorem not_showsOverflow_reduce {source : String} {equation : Equation}
    (accepted : Equation.read source = .ok equation) :
    ¬ ShowsOverflow equation.reduce.text.toList := by
  obtain ⟨left, right, rfl, workable⟩ := exists_ofSides_of_read accepted
  exact not_showsOverflow_text (finite_reduce_iff.mpr workable.finite)
    fun _ member => absurd member List.not_mem_nil

/-- **Overflow is shown just where rounding to places brings it about.**  The reduced form
of an equation that was read shows none, and the numbers of its report are finite.  The
report shows overflow if one of them does not look whole and overflows when it is rounded
to the places asked for.  None does at up to `safePlaces` places, if all leave eight
places of room. -/
theorem showsOverflow_iff {source : String} {equation : Equation} {settings : Settings}
    (accepted : Equation.read source = .ok equation) (allowed : 1 ≤ settings.denominatorBound) :
    ¬ ShowsOverflow equation.reduce.text.toList ∧
    ∃ report, equation.solve settings = .ok report ∧
      (∀ number ∈ report.shownNumbers, number.1.isFinite = true ∧ number.2 = settings.places) ∧
      (ShowsOverflow report.text.toList ↔ ∃ number ∈ report.shownNumbers,
        number.1.looksWhole = false ∧ (number.1.roundTo settings.places).isFinite = false) ∧
      (settings.places ≤ Binary64.safePlaces →
        (∀ number ∈ report.shownNumbers, |number.1.toRat| * 10 ^ 8 < Binary64.overflowBound) →
          ¬ ShowsOverflow report.text.toList) := by
  refine ⟨not_showsOverflow_reduce accepted, ?_⟩
  obtain ⟨report, solved, -⟩ := (Obtained.read accepted).wellFormed.solve_succeeds allowed
  have finite : FiniteNumbers settings report.shownNumbers := by
    obtain ⟨left, right, rfl, workable⟩ := exists_ofSides_of_read accepted
    have coefficients := isFinite_coefficient (finite_reduce_iff.mpr workable.finite)
    exact Coefficients.finite_shownNumbers (coefficients 2) (coefficients 1) (coefficients 0) solved
  have shows : ShowsOverflow report.text.toList ↔ ∃ number ∈ report.shownNumbers,
      number.1.looksWhole = false ∧ (number.1.roundTo settings.places).isFinite = false := by
    rw [Report.showsOverflow_text_iff]
    refine exists_congr fun number => and_congr_right fun member => ?_
    obtain ⟨numberFinite, places⟩ := finite number member
    rw [places]
    exact Binary64.showsOverflow_shown_iff settings.places numberFinite
  refine ⟨report, solved, finite, shows, fun few room => ?_⟩
  rw [shows]
  rintro ⟨number, member, broken, infinite⟩
  rw [Binary64.isFinite_roundTo_of_room few (finite number member).1 broken (room number member)]
    at infinite
  cases infinite

/-- The equation `2 * x = 1` shows no overflow: its root `0.5` has room for three places. -/
theorem showsOverflow_iff_linear :
    ∃ equation report, Equation.read "2 * x = 1" = .ok equation ∧
      equation.solve {} = .ok report ∧
      ¬ ShowsOverflow equation.reduce.text.toList ∧ ¬ ShowsOverflow report.text.toList := by
  have accepted : Equation.read "2 * x = 1" = .ok (ofSides [⟨2, 1⟩] [⟨1, 0⟩]) := by
    decide +kernel
  obtain ⟨reduced, report, solved, -, shows, -⟩ := @showsOverflow_iff _ _ {} accepted (by decide)
  have numbers : ((ofSides [⟨2, 1⟩] [⟨1, 0⟩]).solve {}).map Report.shownNumbers =
      .ok [(Decimal.nearest ⟨false, 5, -1⟩, 3)] := by
    decide +kernel
  rw [solved] at numbers
  obtain ⟨half, shown, inReach⟩ : ∃ half, report.shownNumbers = [(half, 3)] ∧
      (half.roundTo ({} : Settings).places).isFinite = true :=
    ⟨_, Except.ok.inj numbers, by decide +kernel⟩
  refine ⟨_, report, accepted, solved, reduced, ?_⟩
  rw [shows, shown]
  rintro ⟨number, member, -, infinite⟩
  rw [List.mem_singleton] at member
  subst member
  exact Bool.false_ne_true (infinite.symm.trans inReach)

/-- **The usual settings show an infinity.**  The root of `x = 10 ^ 308` is finite and is
computed without error, but three places of it are out of reach. -/
theorem solve_shows_infinity :
    ∃ equation report,
      Equation.read (String.ofList ("x = 1".toList ++ List.replicate 308 '0')) = .ok equation ∧
      equation.solve {} = .ok report ∧ ShowsOverflow report.text.toList := by
  have accepted : Equation.read (String.ofList ("x = 1".toList ++ List.replicate 308 '0')) =
      .ok (ofSides [⟨1, 1⟩] [⟨Decimal.nearest ⟨false, 1, 308⟩, 0⟩]) := by
    rw [Equation.read, String.toList_ofList]
    decide +kernel
  have numbers : ((ofSides [⟨1, 1⟩] [⟨Decimal.nearest ⟨false, 1, 308⟩, 0⟩]).solve {}).map
      Report.shownNumbers = .ok [(Decimal.nearest ⟨false, 1, 308⟩, 3)] := by
    decide +kernel
  have outOfReach : (Decimal.nearest ⟨false, 1, 308⟩).isFinite = true ∧
      (Decimal.nearest ⟨false, 1, 308⟩).looksWhole = false ∧
      ((Decimal.nearest ⟨false, 1, 308⟩).roundTo 3).isFinite = false := by
    decide +kernel
  cases solved : (ofSides [⟨1, 1⟩] [⟨Decimal.nearest ⟨false, 1, 308⟩, 0⟩]).solve {} with
  | error misuse => rw [solved] at numbers; cases numbers
  | ok report =>
    rw [solved] at numbers
    have shown : report.shownNumbers = [(Decimal.nearest ⟨false, 1, 308⟩, 3)] :=
      Except.ok.inj numbers
    refine ⟨_, report, accepted, solved, ?_⟩
    rw [Report.showsOverflow_text_iff, shown, overflowsAmong_cons,
      Binary64.showsOverflow_shown_iff 3 outOfReach.1]
    exact .inl outOfReach.2

end Equation

end Quadratics
