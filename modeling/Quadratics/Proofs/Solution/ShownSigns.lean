import Quadratics.Proofs.Solution.Safety
import Quadratics.Proofs.Solution.Quadratic
import Quadratics.Proofs.Text.Signs
import Quadratics.Solution.Printer

/-!
# What a report shows of the signs

With the usual settings the report of a quadratic shows the discriminant to three places and
says which sign it has.  The sign is that of the discriminant itself, so below half a
thousandth the report says that a discriminant is positive or negative, and shows it as zero.
From there on the number that is shown has the sign that the report speaks of, and it never
has the other one (`TellsSign`).

A conjugate root is divided by the denominator `2a`, which is shown to three places too.  So
it is not divided by zero, unless `2a` is below half a thousandth.

Both are seen in `solve_shows_zero`.  Nothing else comes about (`Equation.report_tells_sign`).
-/

namespace Quadratics

set_option autoImplicit false

/-! ## Denominators -/

/-- A text ends in a zero behind a slash just where there is nothing else behind the last one. -/
theorem suffix_slash_zero_iff {front behind : List Char} (last : '/' ∉ behind) :
    ['/', '0'] <:+ front ++ '/' :: behind ↔ behind = ['0'] := by
  constructor
  · rintro ⟨start, same⟩
    have reversed : '0' :: '/' :: start.reverse = behind.reverse ++ '/' :: front.reverse := by
      simpa using congrArg List.reverse same
    have absent : '/' ∉ behind.reverse := List.mem_reverse.not.mpr last
    rw [← List.reverse_inj]
    generalize behind.reverse = backwards at reversed absent
    match backwards with
    | [] => cases reversed
    | [final] =>
      rw [← (List.cons.inj reversed).1]
      rfl
    | final :: before :: rest =>
      rw [← (List.cons.inj (List.cons.inj reversed).2).1] at absent
      exact absurd (List.mem_cons_of_mem _ List.mem_cons_self) absent
  · rintro rfl
    exact ⟨front, rfl⟩

/-- No number is written with a slash. -/
theorem Binary64.slash_not_mem_text (number : Binary64) : '/' ∉ number.text.toList := by
  intro member
  match number with
  | .finite _ _ _ _ => exact absurd (mem_text rfl member) (by decide)
  | .infinity false => exact absurd member (by decide)
  | .infinity true => exact absurd member (by decide)
  | .nan _ => exact absurd member (by show '/' ∉ "NaN".toList; decide)

/-- A conjugate root ends in a zero behind a slash just where its denominator is shown as zero. -/
theorem ConjugateRoot.suffix_slash_zero_iff (root : ConjugateRoot) :
    ['/', '0'] <:+ root.text.toList ↔ root.denominator.shown root.places = "0" := by
  have parts : root.text.toList = ("(" ++ root.realText ++ "√" ++
      root.radicand.shown root.places ++ "i)").toList ++
        '/' :: (root.denominator.shown root.places).toList := by
    rw [ConjugateRoot.text, show "i)/" = "i)" ++ "/" by decide]
    simp only [String.toList_append, List.append_assoc]
    rfl
  have last : '/' ∉ (root.denominator.shown root.places).toList := Binary64.slash_not_mem_text _
  rw [parts, Quadratics.suffix_slash_zero_iff last, ← String.toList_inj]
  rfl

namespace Coefficients

/-! ## Lines -/

/-- The lines of a quadratic's report, and how the number shown for the discriminant agrees
with what is said of it. -/
inductive TellsSign (coefficients : Coefficients) : List String → Prop where
  /-- The discriminant is positive, and shown as a positive number if it is large enough. -/
  | positive {discriminant : Binary64} {number first second : String}
      (found : coefficients.discriminant? = some discriminant)
      (sign : 0 < discriminant.toRat)
      (shown : if discriminant.toRat < 1 / 2000 then number = "0" else WritesPositive number) :
      TellsSign coefficients
        ["Polynomial degree: 2", "Discriminant: " ++ number,
          "The discriminant is strictly positive", "The two solutions are:", first, second]
  /-- The discriminant is zero, and shown as zero. -/
  | zero {solution : String} (found : coefficients.discriminant? = some 0) :
      TellsSign coefficients
        ["Polynomial degree: 2", "Discriminant: 0", "The discriminant is equal to 0",
          "The solution is: " ++ solution]
  /-- The discriminant is negative, and shown as a negative number if it is large enough.  A
  large enough denominator is not shown as zero. -/
  | negative {discriminant : Binary64} {number first second : String}
      (found : coefficients.discriminant? = some discriminant)
      (sign : discriminant.toRat < 0)
      (shown : if -(1 / 2000) < discriminant.toRat then number = "0" else WritesNegative number)
      (denominator : ∀ root ∈ [first, second], ['/', '0'] <:+ root.toList →
        |2 * coefficients.quadratic.toRat| < 1 / 2000) :
      TellsSign coefficients
        ["Polynomial degree: 2", "Discriminant: " ++ number,
          "The discriminant is strictly negative", "The two complex solutions are:", first, second]
  /-- A root is too large. -/
  | tooLarge {number : String} :
      TellsSign coefficients
        ["Polynomial degree: 2", "Discriminant: " ++ number,
          "The coefficients are too large, the solutions can't be represented"]
  /-- The discriminant is too large. -/
  | missing (missing : coefficients.discriminant? = none) :
      TellsSign coefficients
        ["Polynomial degree: 2",
          "The coefficients are too large, the solutions can't be represented"]

variable {coefficients : Coefficients} {discriminant : Binary64} {outcome : Outcome}
  {report : Report}

/-- The lines of a quadratic's report, with the usual settings. -/
theorem lines_quadratic (discriminant : Option Binary64) (outcome : Outcome) :
    Report.lines ⟨2, coefficients, discriminant, outcome, {}⟩ =
      "Polynomial degree: 2" ::
        ((discriminant.toList.map fun discriminant => "Discriminant: " ++ discriminant.shown 3) ++
          Report.outcomeLines ⟨2, coefficients, discriminant, outcome, {}⟩) := by
  have degree : "Polynomial degree: " ++ toString (UInt32.toNat 2) = "Polynomial degree: 2" := by
    decide
  rw [← degree]
  cases discriminant <;> rfl

/-- The lines on an outcome for which there is a discriminant. -/
theorem SolvedBy.tellsSign (found : coefficients.discriminant? = some discriminant)
    (solved : coefficients.SolvedBy discriminant {} outcome) :
    coefficients.TellsSign
      (Report.lines ⟨2, coefficients, some discriminant, outcome, {}⟩) := by
  have isDiscriminated := discriminated found
  have finite := isDiscriminated.finite
  rw [lines_quadratic]
  cases solved with
  | two positive =>
    rw [Binary64.lt_iff_toRat Binary64.vanishes_zero.1 finite, Binary64.toRat_zero] at positive
    refine .positive found positive ?_
    split
    · exact Binary64.shown_three_of_small finite (by rwa [abs_of_pos positive])
    · exact Binary64.writesPositive_shown_three finite (not_lt.mp ‹_›)
  | one zero =>
    subst zero
    have isZero : (0 : Binary64).shown 3 = "0" :=
      Binary64.shown_three_of_small finite (by rw [Binary64.toRat_zero]; norm_num)
    rw [Option.toList_some, List.map_singleton, isZero]
    exact .zero found
  | @conjugates conjugate negative root_eq =>
    have shownZero : ∀ sign, ['/', '0'] <:+ (conjugate sign).text.toList →
        (2 * coefficients.quadratic).shown 3 = "0" := by
      intro sign ends
      have isZero := (conjugate sign).suffix_slash_zero_iff.mp ends
      rwa [root_eq] at isZero
    rw [Binary64.lt_iff_toRat finite Binary64.vanishes_zero.1, Binary64.toRat_zero] at negative
    refine .negative found negative ?_ fun text member ends => ?_
    · split
      · exact Binary64.shown_three_of_small finite (by rw [abs_of_neg negative]; linarith)
      · exact Binary64.writesNegative_shown_three finite (not_lt.mp ‹_›)
    · rw [← isDiscriminated.toRat_denominator,
        ← Binary64.shown_three_eq_zero_iff isDiscriminated.denominator]
      rcases List.mem_pair.mp member with rfl | rfl
      · exact shownZero true ends
      · exact shownZero false ends
  | tooLarge => exact .tooLarge

/-- **The report of a quadratic tells the sign of the discriminant.** -/
theorem tellsSign_of_solve (solved : coefficients.solve 2 {} = .ok report) :
    coefficients.TellsSign report.lines := by
  obtain ⟨outcome, isOutcome, rfl⟩ := outcome_of_solve solved
  rw [if_pos rfl]
  obtain ⟨-, ⟨missing, rfl⟩ | ⟨discriminant, found, solvedBy⟩⟩ := solveQuadratic_cases isOutcome
  · rw [missing, lines_quadratic]
    exact .missing missing
  · rw [found]
    exact solvedBy.tellsSign found

end Coefficients

namespace Equation

/-- **A report does not contradict itself, but for what is less than half of the last place.**
The report of a quadratic equation that was read says which sign the discriminant has, and
shows the discriminant to three places.  That number has the sign that the report speaks of,
or it is zero, which it is just where the discriminant is less than half a thousandth.  No
conjugate root is divided by what is shown as zero, unless the denominator is less than that. -/
theorem report_tells_sign {source : String} {equation : Equation}
    (accepted : Equation.read source = .ok equation) (quadratic : equation.reduce.degree = 2) :
    ∃ report, equation.solve {} = .ok report ∧ equation.coefficients.TellsSign report.lines := by
  have allowed : 1 ≤ ({} : Settings).denominatorBound := by decide
  obtain ⟨report, solved, -, -⟩ := (Obtained.read accepted).wellFormed.solve_succeeds allowed
  refine ⟨report, solved, ?_⟩
  rw [Equation.solve, quadratic] at solved
  exact Coefficients.tellsSign_of_solve solved

/-- The equation `x^2 + 1 = 0`, whose discriminant is negative. -/
theorem report_tells_sign_imaginary :
    ∃ equation report, Equation.read "x^2 + 1 = 0" = .ok equation ∧
      equation.solve {} = .ok report ∧ equation.coefficients.TellsSign report.lines := by
  have accepted : Equation.read "x^2 + 1 = 0" = .ok (ofSides [⟨1, 2⟩, ⟨1, 0⟩] [⟨0, 0⟩]) := by
    decide +kernel
  obtain ⟨report, solved, tells⟩ := report_tells_sign accepted (by decide +kernel)
  exact ⟨_, report, accepted, solved, tells⟩

theorem exists_report_of_lines {source : String} {degree : UInt32} {lines : List String}
    (found : ((Equation.read source).toOption.bind fun equation =>
      (equation.solve {}).toOption.map fun report => (equation.reduce.degree, report.lines)) =
        some (degree, lines)) :
    ∃ equation report, Equation.read source = .ok equation ∧ equation.reduce.degree = degree ∧
      equation.solve {} = .ok report ∧ report.lines = lines := by
  cases accepted : Equation.read source with
  | error _ => rw [accepted] at found; cases found
  | ok equation =>
    rw [accepted] at found
    change ((equation.solve {}).toOption.map _) = _ at found
    cases solved : equation.solve {} with
    | error _ => rw [solved] at found; cases found
    | ok report =>
      rw [solved] at found
      cases found
      exact ⟨equation, report, rfl, rfl, solved, rfl⟩

/-- **Small numbers are shown as zero beside what is said of them.**  The discriminant of the
first equation is `10 ^ -12`.  That of the second is `-0.0004`, and the denominator of its roots
is `0.0002`. -/
theorem solve_shows_zero :
    (∃ equation report,
      Equation.read "0.000001 * x^2 - 0.000003 * x + 0.000002 = 0" = .ok equation ∧
      equation.reduce.degree = 2 ∧ equation.solve {} = .ok report ∧
      report.lines = ["Polynomial degree: 2", "Discriminant: 0",
        "The discriminant is strictly positive", "The two solutions are:", "1", "2"]) ∧
    ∃ equation report, Equation.read "0.0001 * x^2 + 1 = 0" = .ok equation ∧
      equation.reduce.degree = 2 ∧ equation.solve {} = .ok report ∧
      report.lines = ["Polynomial degree: 2", "Discriminant: 0",
        "The discriminant is strictly negative", "The two complex solutions are:",
        "(-√0i)/0", "(√0i)/0"] :=
  ⟨exists_report_of_lines (by decide +kernel), exists_report_of_lines (by decide +kernel)⟩

end Equation

end Quadratics
