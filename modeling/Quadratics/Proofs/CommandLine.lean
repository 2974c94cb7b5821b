import Quadratics.CommandLine
import Quadratics.Proofs.Equation.CursorAgreement
import Quadratics.Proofs.Fraction.Words
import Quadratics.Proofs.Solution.Safety

/-!
# The program from its arguments to its exit

Where the arguments ask for a report, the settings of it allow a denominator and
keep it to a word (`settings_of_read`): the scan of the arguments preserves this,
and it holds of the settings that are not asked for.  Such settings are all that
solving needs, and so the program always comes to an end that is meant
(`status_run`): it writes a report, or it says why the equation is refused
(`pipeline_safe`).
-/

namespace Quadratics.CommandLine

set_option autoImplicit false

/-! ## The settings that are asked for -/

/-- A denominator bound that was found is a positive word. -/
def Found.Allowed (found : Found) : Prop :=
  ∀ bound, found.denominatorBound = some bound → 1 ≤ bound ∧ bound < Fraction.Words.wordLimit

variable {found next : Found}

theorem Found.Allowed.withEquation {equation : String} (allowed : found.Allowed)
    (taken : found.withEquation equation = some next) : next.Allowed := by
  unfold Found.withEquation at taken
  split at taken
  · cases taken
  · cases taken
    exact allowed

theorem Found.Allowed.withVerbose (allowed : found.Allowed)
    (taken : found.withVerbose = some next) : next.Allowed := by
  unfold Found.withVerbose at taken
  split at taken
  · cases taken
  · cases taken
    exact allowed

/-- **Switches keep the denominator bound as it is.** -/
theorem Found.Allowed.withSwitches {letters : List Char} (allowed : found.Allowed)
    (taken : found.withSwitches letters = some next) : next.Allowed := by
  induction found, letters using Found.withSwitches.induct with
  | case1 found =>
    cases taken
    exact allowed
  | case2 found letters ih =>
    obtain ⟨between, verbose, taken⟩ := Option.bind_eq_some_iff.mp taken
    exact ih between (allowed.withVerbose verbose) taken
  | case3 found letters =>
    cases taken
    exact allowed
  | case4 found letters notEmpty notVerbose notHelp =>
    rw [Found.withSwitches] at taken
    · cases taken
    all_goals assumption

theorem Found.Allowed.withNumber {option : Valued} {characters : List Char}
    (allowed : found.Allowed) (taken : found.withNumber option characters = some next) :
    next.Allowed := by
  unfold Found.withNumber at taken
  split at taken
  · cases taken
  · split at taken
    · cases taken
    · cases taken
      exact allowed
  · split at taken
    · cases taken
    · rename_i number _ outside
      cases taken
      intro bound same
      cases same
      have limit : (Fraction.Words.wordLimit : Int) = 9223372036854775808 := by decide +kernel
      rw [limit]
      omega

theorem Found.Allowed.scanPlain {arguments : List String} (allowed : found.Allowed)
    (scanned : scanPlain found arguments = some next) : next.Allowed := by
  induction arguments generalizing found with
  | nil =>
    cases scanned
    exact allowed
  | cons argument rest ih =>
    obtain ⟨between, taken, scanned⟩ := Option.bind_eq_some_iff.mp scanned
    exact ih (allowed.withEquation taken) scanned

/-- **Every turn of the scan keeps the denominator bound a positive word.** -/
theorem Found.Allowed.scan {arguments : List String} (allowed : found.Allowed)
    (scanned : scan found arguments = some next) : next.Allowed := by
  induction found, arguments using CommandLine.scan.induct with
  | case1 found =>
    cases scanned
    exact allowed
  | case2 found argument rest isPlain ih =>
    simp only [CommandLine.scan, isPlain] at scanned
    obtain ⟨between, taken, scanned⟩ := Option.bind_eq_some_iff.mp scanned
    exact ih between (allowed.withEquation taken) scanned
  | case3 found argument rest isEnd =>
    simp only [CommandLine.scan, isEnd] at scanned
    exact allowed.scanPlain scanned
  | case4 found argument rest letters isSwitch ih =>
    simp only [CommandLine.scan, isSwitch] at scanned
    obtain ⟨between, taken, scanned⟩ := Option.bind_eq_some_iff.mp scanned
    split at scanned
    · cases scanned
      exact allowed.withSwitches taken
    · exact ih between (allowed.withSwitches taken) scanned
  | case5 found argument rest option characters isOption ih =>
    simp only [CommandLine.scan, isOption] at scanned
    obtain ⟨between, taken, scanned⟩ := Option.bind_eq_some_iff.mp scanned
    exact ih between (allowed.withNumber taken) scanned
  | case6 found argument option isOption =>
    simp only [CommandLine.scan, isOption] at scanned
    cases scanned
  | case7 found argument option isOption number rest isPlain ih =>
    simp only [CommandLine.scan, isOption, isPlain, if_true] at scanned
    obtain ⟨between, taken, scanned⟩ := Option.bind_eq_some_iff.mp scanned
    exact ih between (allowed.withNumber taken) scanned
  | case8 found argument option isOption number rest notPlain =>
    simp only [CommandLine.scan, isOption, notPlain, if_false] at scanned
    cases scanned
  | case9 found argument rest isUnknown =>
    simp only [CommandLine.scan, isUnknown] at scanned
    cases scanned

/-- **Arguments that ask for a report allow a bound that is a positive word.** -/
theorem settings_of_read {arguments : List String} {source : String} {settings : Settings}
    (understood : read arguments = some (.solve source settings)) :
    1 ≤ settings.denominatorBound ∧ settings.denominatorBound < Fraction.Words.wordLimit := by
  obtain ⟨found, scanned, asked⟩ := Option.bind_eq_some_iff.mp understood
  have start : ({} : Found).Allowed := by
    intro bound asked
    cases asked
  have allowed := start.scan scanned
  unfold Found.request? at asked
  split at asked
  · cases asked
  · obtain ⟨equation, -, same⟩ := Option.map_eq_some_iff.mp asked
    cases same
    have default : 1 ≤ defaultDenominatorBound ∧
        defaultDenominatorBound < Fraction.Words.wordLimit := by decide +kernel
    cases asked : found.denominatorBound with
    | none => exact default
    | some bound => exact allowed bound asked

/-! ## Responses -/

theorem respond_of_refused {source : String} {refusal : Equation.Refusal} (settings : Settings)
    (refused : Equation.read source = .error refusal) : (respond source settings).status = 1 := by
  simp only [respond, refused]

/-- **An accepted equation is answered.** -/
theorem respond_of_accepted {source : String} {equation : Equation} {settings : Settings}
    (accepted : Equation.read source = .ok equation) (allowed : 1 ≤ settings.denominatorBound) :
    (respond source settings).status = 0 := by
  have wellFormed := (Equation.Obtained.read accepted).wellFormed.reduce
  obtain ⟨report, solved, -⟩ := wellFormed.solve_succeeds allowed
  simp only [respond, accepted, solved]

/-- **Every run ends with one of three statuses**: help, reports and refused equations are
answers, and arguments that cannot be understood are told by a status of their own. -/
theorem status_run (arguments : List String) :
    (run arguments).status =
      match read arguments with
      | none => 2
      | some .help => 0
      | some (.solve source _) => if (Equation.read source).isOk then 0 else 1 := by
  rw [run]
  cases understood : read arguments with
  | none => rfl
  | some request =>
    cases request with
    | help => rfl
    | solve source settings =>
      have allowed := (settings_of_read understood).1
      dsimp only
      cases verdict : Equation.read source with
      | error refusal => exact respond_of_refused settings verdict
      | ok equation => exact respond_of_accepted verdict allowed

/-! ## The whole program -/

/-- **Nothing in the program breaks a promise.** The reader comes to no breach on any
text, and reducing to none on any equation.  Solving succeeds on every equation that
can be obtained, with any settings that allow a denominator, and the search for a
fraction keeps to words for every number and every bound that is a positive word.
An equation that was read has a degree that can be solved, and arguments that ask
for a report lead to one or to a refusal. -/
theorem pipeline_safe :
    (∀ source : String, Equation.Cursor.read source.toList = .ok (Equation.read source)) ∧
      (∀ equation : Equation, Equation.Grouping.run equation = .ok equation.reduce) ∧
      (∀ (equation : Equation) (settings : Settings), Equation.Obtained equation →
        1 ≤ settings.denominatorBound → ∃ report, equation.solve settings = .ok report) ∧
      (∀ (value : Binary64) (bound : Int), 1 ≤ bound → bound < Fraction.Words.wordLimit →
        ∃ found, Fraction.Words.closest value bound = .ok found ∧
          Fraction.closest? value bound = .ok found) ∧
      (∀ (source : String) (equation : Equation) (settings : Settings),
        Equation.read source = .ok equation → 1 ≤ settings.denominatorBound →
          ∃ report, equation.solve settings = .ok report ∧ report.degree ≤ 2 ∧
            report.outcome ≠ .unsupported) ∧
      (∀ (arguments : List String) (source : String) (settings : Settings),
        read arguments = some (.solve source settings) →
          (run arguments).status = if (Equation.read source).isOk then 0 else 1) := by
  refine ⟨fun source => Equation.Cursor.read_eq _, Equation.Grouping.run_eq, ?_,
    fun value bound => Fraction.Words.closest_eq value, ?_, ?_⟩
  · intro equation settings obtained allowed
    obtain ⟨report, solved, -⟩ := obtained.wellFormed.solve_succeeds allowed
    exact ⟨report, solved⟩
  · intro source equation settings accepted allowed
    obtain ⟨report, solved, degree, unsupported⟩ :=
      (Equation.Obtained.read accepted).wellFormed.solve_succeeds allowed
    have low := Equation.degree_le_of_read accepted
    rw [← degree] at low unsupported
    exact ⟨report, solved, low, fun isUnsupported =>
      absurd (unsupported isUnsupported) (UInt32.not_lt.mpr low)⟩
  · intro arguments source settings understood
    rw [status_run, understood]

/-- The equation `2 * x = 3`, one with an infinite coefficient, and a text that is none. -/
theorem pipeline_safe_linear :
    (∃ report, (Equation.ofSides [⟨.infinity true, 1⟩] []).solve {} = .ok report) ∧
      (∃ report, (Equation.ofSides [⟨2, 1⟩] [⟨3, 0⟩]).solve {} = .ok report ∧ report.degree ≤ 2 ∧
        report.outcome ≠ .unsupported) ∧
      (∃ found, Fraction.Words.closest 1 128 = .ok found ∧ Fraction.closest? 1 128 = .ok found) ∧
      (run ["-v", "2 * x = 3"]).status = 0 ∧ (run ["2 * x = "]).status = 1 := by
  obtain ⟨-, -, obtained, searched, solved, exits⟩ := pipeline_safe
  have accepted : Equation.read "2 * x = 3" = .ok (Equation.ofSides [⟨2, 1⟩] [⟨3, 0⟩]) := by
    decide +kernel
  have refused : (Equation.read "2 * x = ").isOk = false := by decide +kernel
  refine ⟨obtained _ _ (.built _ _) (by decide), solved _ _ _ accepted (by decide),
    searched 1 128 (by decide) (by decide +kernel), ?_, ?_⟩
  · rw [exits _ "2 * x = 3" { verbose := true } (by decide +kernel), accepted]
    rfl
  · rw [exits _ "2 * x = " {} (by decide +kernel), refused]
    rfl

end Quadratics.CommandLine
