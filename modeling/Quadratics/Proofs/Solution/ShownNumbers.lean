import Quadratics.Proofs.Binary64.Places
import Quadratics.Proofs.Text.OverflowWords
import Quadratics.Solution.Printer

/-!
# The numbers that a report shows

A report shows the coefficients if it is verbose, the discriminant if there is one, and the
numbers of the roots (`Report.shownNumbers`).  Its other words are fixed, so the words for
what is not finite come from these numbers alone (`Report.showsOverflow_text_iff`).

A finite number shows one of these words just where it does not look whole and rounding it
to the places overflows (`Binary64.showsOverflow_shown_iff`).
-/

namespace Quadratics

set_option autoImplicit false

/-! ## One number -/

/-- **A finite number is shown as one that is not finite just where rounding it to places
overflows.** -/
theorem Binary64.showsOverflow_shown_iff {x : Binary64} (places : Nat)
    (finite : x.isFinite = true) : ShowsOverflow (x.shown places).toList ↔
      x.looksWhole = false ∧ (x.roundTo places).isFinite = false := by
  rw [Binary64.shown, showsOverflow_text_iff]
  cases x.looksWhole with
  | true =>
    rw [if_pos rfl, Binary64.isFinite_roundTo_zero finite]
    simp
  | false => simp

/-- A number that is not finite, to so many places. -/
def OverflowsAmong (numbers : List (Binary64 × Nat)) : Prop :=
  ∃ number ∈ numbers, ShowsOverflow (number.1.shown number.2).toList

theorem overflowsAmong_append {numbers others : List (Binary64 × Nat)} :
    OverflowsAmong (numbers ++ others) ↔ OverflowsAmong numbers ∨ OverflowsAmong others := by
  unfold OverflowsAmong
  simp only [List.mem_append, or_and_right, exists_or]

theorem overflowsAmong_cons {number : Binary64 × Nat} {others : List (Binary64 × Nat)} :
    OverflowsAmong (number :: others) ↔
      ShowsOverflow (number.1.shown number.2).toList ∨ OverflowsAmong others :=
  List.exists_mem_cons_iff _ _ _

theorem not_overflowsAmong_nil : ¬ OverflowsAmong [] :=
  fun ⟨_, member, _⟩ => absurd member List.not_mem_nil

/-! ## Roots -/

/-- The number of a real root. -/
def RealRoot.shownNumbers (root : RealRoot) : List (Binary64 × Nat) :=
  [(root.value, root.places)]

/-- The numbers of a conjugate root.  A vanishing real part is left out. -/
def ConjugateRoot.shownNumbers (root : ConjugateRoot) : List (Binary64 × Nat) :=
  (if root.real.sameNumber 0 then [] else [(root.real, root.places)]) ++
    [(root.radicand, root.places), (root.denominator, root.places)]

theorem RealRoot.showsOverflow_text_iff (root : RealRoot) :
    ShowsOverflow root.text.toList ↔ OverflowsAmong root.shownNumbers := by
  rw [RealRoot.shownNumbers, overflowsAmong_cons, or_iff_left not_overflowsAmong_nil]
  unfold RealRoot.text
  dsimp only
  split
  · rw [showsOverflow_append_delimiter (by decide), String.append_assoc,
      showsOverflow_append_delimited (by decide),
      or_iff_right (Fraction.not_showsOverflow_text _)]
  · rfl

theorem ConjugateRoot.showsOverflow_text_iff (root : ConjugateRoot) :
    ShowsOverflow root.text.toList ↔ OverflowsAmong root.shownNumbers := by
  have bar : "i)/" = "i" ++ ")/" := by decide
  have realText : ShowsOverflow root.realText.toList ↔
      OverflowsAmong (if root.real.sameNumber 0 then [] else [(root.real, root.places)]) := by
    unfold ConjugateRoot.realText
    by_cases vanishes : root.real.sameNumber 0 = true
    · simp only [if_pos vanishes]
      refine iff_of_false ?_ not_overflowsAmong_nil
      split
      · exact not_showsOverflow_ofList (by decide)
      · exact not_showsOverflow_nil
    · simp only [if_neg vanishes]
      rw [overflowsAmong_cons, or_iff_left not_overflowsAmong_nil]
      split
      · exact showsOverflow_append_delimiter (by decide)
      · exact showsOverflow_append_delimiter (by decide)
  have radicand : ShowsOverflow (root.radicand.shown root.places ++ "i").toList ↔
      ShowsOverflow (root.radicand.shown root.places).toList := by
    rw [String.toList_append]
    exact showsOverflow_append_i
  rw [ConjugateRoot.shownNumbers, overflowsAmong_append, overflowsAmong_cons, overflowsAmong_cons,
    or_iff_left not_overflowsAmong_nil, ← realText, ConjugateRoot.text, bar]
  simp only [String.append_assoc]
  rw [showsOverflow_delimiter_append (by decide),
    showsOverflow_append_delimited (by decide), ← String.append_assoc,
    showsOverflow_append_delimited (by decide), radicand]

/-! ## Lines -/

/-- Some line holds a word for what is not finite. -/
def OverflowsLines (lines : List String) : Prop :=
  ∃ line ∈ lines, ShowsOverflow line.toList

theorem overflowsLines_append {lines others : List String} :
    OverflowsLines (lines ++ others) ↔ OverflowsLines lines ∨ OverflowsLines others := by
  unfold OverflowsLines
  simp only [List.mem_append, or_and_right, exists_or]

theorem overflowsLines_cons {line : String} {others : List String} :
    OverflowsLines (line :: others) ↔ ShowsOverflow line.toList ∨ OverflowsLines others :=
  List.exists_mem_cons_iff _ _ _

theorem not_overflowsLines_nil : ¬ OverflowsLines [] :=
  fun ⟨_, member, _⟩ => absurd member List.not_mem_nil

theorem not_overflowsLines_cons {line : String} {others : List String}
    (plain : ¬ ShowsOverflow line.toList) (othersPlain : ¬ OverflowsLines others) :
    ¬ OverflowsLines (line :: others) := by
  rw [overflowsLines_cons, not_or]
  exact ⟨plain, othersPlain⟩

theorem overflowsLines_pair {first second : String} :
    OverflowsLines [first, second] ↔ ShowsOverflow first.toList ∨ ShowsOverflow second.toList := by
  rw [overflowsLines_cons, overflowsLines_cons, or_iff_left not_overflowsLines_nil]

/-- A fixed line, given by its characters. -/
theorem overflowsLines_fixed {line : List Char} {others : List String}
    (plain : ¬ ShowsOverflow line) :
    OverflowsLines (String.ofList line :: others) ↔ OverflowsLines others := by
  rw [overflowsLines_cons, or_iff_right (not_showsOverflow_ofList plain)]

theorem not_overflowsLines_fixed {line : List Char} {others : List String}
    (plain : ¬ ShowsOverflow line) (othersPlain : ¬ OverflowsLines others) :
    ¬ OverflowsLines (String.ofList line :: others) :=
  (overflowsLines_fixed plain).not.mpr othersPlain

/-! ## Reports -/

/-- The numbers of an outcome. -/
def Outcome.shownNumbers : Outcome → List (Binary64 × Nat)
  | .one root => root.shownNumbers
  | .two first second => first.shownNumbers ++ second.shownNumbers
  | .conjugates first second => first.shownNumbers ++ second.shownNumbers
  | .everyNumber => []
  | .noNumber => []
  | .unsupported => []
  | .tooLarge => []

namespace Report

variable (report : Report)

/-- The coefficients, to the places of the report. -/
def shownCoefficients : List (Binary64 × Nat) :=
  [(report.coefficients.quadratic, report.settings.places),
    (report.coefficients.linear, report.settings.places),
    (report.coefficients.constant, report.settings.places)]

/-- The discriminant, if there is one, to the places of the report. -/
def shownDiscriminant : List (Binary64 × Nat) :=
  report.discriminant.toList.map fun discriminant => (discriminant, report.settings.places)

/-- The numbers that a report shows. -/
def shownNumbers : List (Binary64 × Nat) :=
  (if report.settings.verbose then report.shownCoefficients else []) ++
    report.shownDiscriminant ++ report.outcome.shownNumbers

theorem overflowsLines_introduction :
    OverflowsLines report.introduction ↔ OverflowsAmong report.shownCoefficients := by
  unfold introduction shownCoefficients
  dsimp only
  simp only [String.append_assoc]
  rw [overflowsLines_fixed (by decide), overflowsLines_cons,
    or_iff_left (not_overflowsLines_fixed not_showsOverflow_nil not_overflowsLines_nil),
    showsOverflow_delimiter_append (by decide),
    showsOverflow_append_delimited (by decide),
    showsOverflow_append_delimited (by decide),
    showsOverflow_append_delimiter (by decide), overflowsAmong_cons, overflowsAmong_cons,
    overflowsAmong_cons, or_iff_left not_overflowsAmong_nil]

-- The fixed lines are looked through character by character.
set_option maxRecDepth 1500 in
theorem overflowsLines_discriminantLines :
    OverflowsLines report.discriminantLines ↔ OverflowsAmong report.shownDiscriminant := by
  unfold discriminantLines shownDiscriminant
  cases report.discriminant with
  | none => exact iff_of_false not_overflowsLines_nil not_overflowsAmong_nil
  | some discriminant =>
    have explained : OverflowsLines
        (if report.settings.verbose then
          discriminantExplanation (discriminant.shown report.settings.places) else []) →
          ShowsOverflow (discriminant.shown report.settings.places).toList := by
      split
      · unfold discriminantExplanation
        rw [overflowsLines_fixed (by decide), overflowsLines_cons,
          or_iff_left not_overflowsLines_nil, String.append_assoc,
          showsOverflow_delimiter_append (by decide),
          showsOverflow_append_delimiter (by decide)]
        exact id
      · exact fun overflows => absurd overflows not_overflowsLines_nil
    show OverflowsLines (("Discriminant: " ++ _) :: _) ↔ OverflowsAmong [_]
    rw [overflowsLines_cons, showsOverflow_delimiter_append (by decide),
      or_iff_left_of_imp explained, overflowsAmong_cons, or_iff_left not_overflowsAmong_nil]

set_option maxRecDepth 1500 in
theorem not_overflowsLines_explanation : ¬ OverflowsLines report.explanation := by
  have broken : ∀ {start rest : List Char} {others : List String}, IsDelimiter start →
      ¬ ShowsOverflow rest → ¬ OverflowsLines others →
        ¬ OverflowsLines ((String.ofList start ++ String.ofList rest) :: others) := by
    intro start rest others isDelimiter plain othersPlain
    refine not_overflowsLines_cons ?_ othersPlain
    rw [showsOverflow_delimiter_append isDelimiter]
    exact not_showsOverflow_ofList plain
  unfold explanation
  cases report.outcome with
  | everyNumber | noNumber | tooLarge => exact not_overflowsLines_nil
  | one root =>
    dsimp only
    split
    · exact not_overflowsLines_fixed (by decide)
        (not_overflowsLines_fixed (by decide) not_overflowsLines_nil)
    · exact not_overflowsLines_fixed (by decide)
        (not_overflowsLines_fixed (by decide) not_overflowsLines_nil)
  | two first second =>
    exact broken (by decide) (by decide)
      (not_overflowsLines_fixed (by decide) not_overflowsLines_nil)
  | conjugates first second =>
    exact broken (by decide) (by decide)
      (not_overflowsLines_fixed (by decide)
        (not_overflowsLines_fixed (by decide) not_overflowsLines_nil))
  | unsupported =>
    refine not_overflowsLines_cons ?_ not_overflowsLines_nil
    rw [showsOverflow_append_delimiter (by decide),
      showsOverflow_delimiter_append (by decide)]
    exact not_showsOverflow_toString _

set_option maxRecDepth 1500 in
theorem overflowsLines_outcomeLines :
    OverflowsLines report.outcomeLines ↔ OverflowsAmong report.outcome.shownNumbers := by
  unfold outcomeLines
  cases report.outcome with
  | everyNumber | noNumber =>
    refine iff_of_false ?_ not_overflowsAmong_nil
    exact not_overflowsLines_fixed (by decide)
      (not_overflowsLines_fixed (by decide) not_overflowsLines_nil)
  | tooLarge =>
    refine iff_of_false ?_ not_overflowsAmong_nil
    exact not_overflowsLines_fixed (by decide) not_overflowsLines_nil
  | unsupported =>
    refine iff_of_false (not_overflowsLines_cons ?_ not_overflowsLines_nil) not_overflowsAmong_nil
    rw [showsOverflow_append_delimiter (by decide),
      showsOverflow_delimiter_append (by decide)]
    exact not_showsOverflow_toString _
  | one root =>
    have plain : ¬ OverflowsLines
        (if report.discriminant.isSome then ["The discriminant is equal to 0"] else []) := by
      split
      · exact not_overflowsLines_fixed (by decide) not_overflowsLines_nil
      · exact not_overflowsLines_nil
    dsimp only
    rw [overflowsLines_append, or_iff_right plain, overflowsLines_cons,
      or_iff_left not_overflowsLines_nil, showsOverflow_delimiter_append (by decide)]
    exact root.showsOverflow_text_iff
  | two first second =>
    dsimp only [Outcome.shownNumbers]
    rw [overflowsLines_fixed (by decide), overflowsLines_fixed (by decide),
      overflowsLines_pair, first.showsOverflow_text_iff, second.showsOverflow_text_iff,
      overflowsAmong_append]
  | conjugates first second =>
    dsimp only [Outcome.shownNumbers]
    rw [overflowsLines_fixed (by decide), overflowsLines_fixed (by decide),
      overflowsLines_pair, first.showsOverflow_text_iff, second.showsOverflow_text_iff,
      overflowsAmong_append]

/-- **The words for what is not finite come from the numbers of a report.** -/
theorem showsOverflow_text_iff :
    ShowsOverflow report.text.toList ↔ OverflowsAmong report.shownNumbers := by
  have degree : ¬ OverflowsLines ["Polynomial degree: " ++ toString report.degree.toNat] := by
    rw [overflowsLines_cons, or_iff_left not_overflowsLines_nil,
      showsOverflow_delimiter_append (by decide)]
    exact not_showsOverflow_toString _
  have introduction :
      OverflowsLines (if report.settings.verbose then report.introduction else []) ↔
        OverflowsAmong (if report.settings.verbose then report.shownCoefficients else []) := by
    split
    · exact report.overflowsLines_introduction
    · exact iff_of_false not_overflowsLines_nil not_overflowsAmong_nil
  have explanation :
      ¬ OverflowsLines (if report.settings.verbose then report.explanation else []) := by
    split
    · exact report.not_overflowsLines_explanation
    · exact not_overflowsLines_nil
  rw [text, showsOverflow_lines_iff]
  show OverflowsLines report.lines ↔ _
  unfold lines shownNumbers
  dsimp only
  rw [overflowsLines_append, overflowsLines_append, overflowsLines_append, overflowsLines_append,
    introduction, or_iff_left degree, or_iff_left explanation,
    report.overflowsLines_discriminantLines, report.overflowsLines_outcomeLines,
    overflowsAmong_append, overflowsAmong_append]

end Report

end Quadratics
