import Quadratics.Proofs.Solution.IntegerRoots

/-!
# How whole roots are shown

A root whose value is an integer is shown without a fraction, as an integer that reads back
as the value (`Equation.whole_roots_shown`).  Below `2 ^ 53` that is the value itself.
Beyond, several integers read back as one number, and the one that ends in the most zeros is
shown: the digits are the shortest, and zeros fill the places behind them.  So the text of a
large root need not have the digits of its value (`Equation.solve_zeros_for_digits`).

The test for a whole number scales by `10 ^ 8`, rounds and scales back.  It is sure to see an
integer that can be scaled exactly, as all integers up to `2 ^ 53 / 5 ^ 8` can, and one that
is too large for digits behind the point.
-/

namespace Quadratics

set_option autoImplicit false

open Binary64 (IsInteger overflowBound)

/-! ## The real roots of an outcome -/

/-- The real roots of an outcome, unless every number is a solution. -/
def Outcome.realRoots : Outcome → List RealRoot
  | .one root => [root]
  | .two first second => [first, second]
  | .everyNumber | .noNumber | .conjugates _ _ | .unsupported | .tooLarge => []

/-- Their values are the real roots that a report lists. -/
theorem Report.map_value_realRoots (report : Report) :
    report.outcome.realRoots.map RealRoot.value = report.realRoots := by
  unfold realRoots Outcome.realRoots
  cases report.outcome <;> rfl

/-- A root is made from a finite value. -/
def RealRoot.IsMade (settings : Settings) (root : RealRoot) : Prop :=
  ∃ value : Binary64, value.isFinite = true ∧ RealRoot.ofValue value settings = .ok root

namespace Coefficients

variable {coefficients : Coefficients} {settings : Settings} {outcome : Outcome} {root : RealRoot}

theorem SolvedBy.isMade {discriminant : Binary64}
    (solved : coefficients.SolvedBy discriminant settings outcome)
    (member : root ∈ outcome.realRoots) : root.IsMade settings := by
  cases solved with
  | two _ finite finite' made made' =>
    rcases List.mem_pair.mp member with rfl | rfl
    · exact ⟨_, finite, made⟩
    · exact ⟨_, finite', made'⟩
  | one _ finite made =>
    obtain rfl := List.mem_singleton.mp member
    exact ⟨_, finite, made⟩
  | conjugates | tooLarge => exact absurd member List.not_mem_nil

/-- **Every real root is made from a finite value**, whatever the degree is. -/
theorem isMade_of_outcome {degree : UInt32}
    (solved : coefficients.outcome degree settings = .ok outcome)
    (member : root ∈ outcome.realRoots) : root.IsMade settings := by
  cases arises_of_outcome solved with
  | constant =>
    unfold solveConstant at member
    split at member <;> exact absurd member List.not_mem_nil
  | linear _ finite made =>
    obtain rfl := List.mem_singleton.mp member
    exact ⟨_, finite, made⟩
  | quadratic _ _ solvedBy => exact solvedBy.isMade member
  | linearTooLarge | quadraticTooLarge | unsupported => exact absurd member List.not_mem_nil

end Coefficients

/-! ## Whole roots -/

namespace RealRoot

/-- A root is shown as an integer: one that reads back as its value, with the most zeros. -/
structure ShownAs (root : RealRoot) (written : ℤ) : Prop where
  /-- No fraction is kept beside it. -/
  fraction : root.fraction = none
  /-- The text is that of the integer. -/
  text : root.text = toString written
  /-- The integer reads back as the value. -/
  reads : .ofInt written = root.value
  /-- No integer that reads back ends in more zeros. -/
  zeros : ∀ (other : ℤ) (zeros : Nat), .ofInt other = root.value → 10 ^ zeros ∣ other →
    10 ^ zeros ∣ written

namespace IsMade

variable {settings : Settings} {root : RealRoot} {number : ℤ}

/-- The integer that a value is reads back as it. -/
theorem ofInt_eq (made : root.IsMade settings) (integer : IsInteger root.value number) :
    .ofInt number = root.value := by
  obtain ⟨value, -, isResult⟩ := made
  rw [← integer.add_zero_eq, (ofValue_eq isResult).1]
  exact (Binary64.alike_add_zero value).add_zero_eq

/-- No fraction is kept beside a value that looks whole. -/
theorem fraction_eq_none (made : root.IsMade settings) (looks : root.value.looksWhole = true) :
    root.fraction = none := by
  obtain ⟨value, -, isResult⟩ := made
  rw [(ofValue_eq isResult).1] at looks
  simp only [ofValue, fractionBeside, looks, if_true, Except.map] at isResult
  cases isResult
  rfl

/-- **A root that is an integer and looks whole is shown as an integer.** -/
theorem exists_shownAs (made : root.IsMade settings) (integer : IsInteger root.value number)
    (looks : root.value.looksWhole = true) : ∃ written, root.ShownAs written := by
  have unsigned : root.value ≠ -0 := by
    obtain ⟨value, -, isResult⟩ := made
    rw [(ofValue_eq isResult).1]
    exact Binary64.add_zero_ne_neg_zero value
  obtain ⟨written, isText, reads, zeros⟩ := Binary64.text_of_isWhole integer.isWhole unsigned
  have fraction := made.fraction_eq_none looks
  refine ⟨written, fraction, ?_, reads, zeros⟩
  rw [text, fraction]
  dsimp only
  rw [integer.shown_of_looksWhole looks, made.ofInt_eq integer, isText]

end IsMade

end RealRoot

namespace Equation

variable {source : String} {equation : Equation} {settings : Settings}

/-- **Whole roots are shown as integers.**  A real root of an equation that was read has no
fraction beside it if its value is an integer that is sure to look whole.  Its text is that
of an integer that reads back as the value, and of the value itself below `2 ^ 53`. -/
theorem whole_roots_shown (accepted : Equation.read source = .ok equation)
    (allowed : 1 ≤ settings.denominatorBound) :
    ∃ report, equation.solve settings = .ok report ∧
      ∀ root ∈ report.outcome.realRoots, ∀ number : ℤ, IsInteger root.value number →
        (|number| * 5 ^ 8 ≤ 2 ^ 53 ∨ (∃ scaled, IsInteger scaled (number * 10 ^ 8)) ∨
          2 ^ 52 ≤ |number| ∧ |(number : ℚ)| * 10 ^ 8 < overflowBound) →
        ∃ written, root.ShownAs written ∧ (|number| < 2 ^ 53 → written = number) := by
  obtain ⟨report, solved, -⟩ := (Obtained.read accepted).wellFormed.solve_succeeds allowed
  refine ⟨report, solved, ?_⟩
  intro root member number integer sure
  obtain ⟨outcome, found, rfl⟩ := Coefficients.outcome_of_solve solved
  have looks : root.value.looksWhole = true := by
    rcases sure with small | ⟨scaled, isScaled⟩ | ⟨large, room⟩
    · obtain ⟨scaled, isScaled⟩ := IsInteger.exists_scaled small
      exact integer.looksWhole_of_scaled isScaled
    · exact integer.looksWhole_of_scaled isScaled
    · exact integer.looksWhole_of_large large room
  have made : root.IsMade settings := Coefficients.isMade_of_outcome found member
  obtain ⟨written, shown⟩ := made.exists_shownAs integer looks
  refine ⟨written, shown, ?_⟩
  intro small
  exact Binary64.eq_of_ofInt_eq small (shown.reads.trans (made.ofInt_eq integer).symm)

/-- The root of `2 * x = 6` is shown as `3`. -/
theorem whole_roots_shown_three :
    ∃ equation report root, Equation.read "2 * x = 6" = .ok equation ∧
      equation.solve {} = .ok report ∧ report.outcome.realRoots = [root] ∧
      root.fraction = none ∧ root.text = toString (3 : ℤ) := by
  have accepted : Equation.read "2 * x = 6" = .ok (ofSides [⟨2, 1⟩] [⟨6, 0⟩]) := by
    decide +kernel
  obtain ⟨report, solved, shown⟩ := @whole_roots_shown _ _ {} accepted (by decide)
  have values : ((ofSides [⟨2, 1⟩] [⟨6, 0⟩]).solve {}).map
      (fun report => report.outcome.realRoots) = .ok [⟨3, none, 3⟩] := by
    decide +kernel
  rw [solved] at values
  have roots : report.outcome.realRoots = [⟨3, none, 3⟩] := Except.ok.inj values
  have integer : IsInteger 3 3 := IsInteger.ofNat 3 (by decide)
  have member : (⟨3, none, 3⟩ : RealRoot) ∈ report.outcome.realRoots := by
    rw [roots]
    exact List.mem_singleton_self _
  obtain ⟨written, isShown, same⟩ := shown ⟨3, none, 3⟩ member 3 integer (.inl (by decide))
  rw [same (by decide)] at isShown
  exact ⟨_, report, _, accepted, solved, roots, isShown.fraction, isShown.text⟩

/-- **Zeros may stand for digits.**  The root of `x = 10 ^ 23` is the binary64 number next to
`10 ^ 23`, and its text is not that of its value. -/
theorem solve_zeros_for_digits :
    ∃ equation report root, Equation.read "x = 100000000000000000000000" = .ok equation ∧
      equation.solve {} = .ok report ∧ report.outcome.realRoots = [root] ∧
      IsInteger root.value 99999999999999991611392 ∧
      root.text = "100000000000000000000000" ∧
      root.text ≠ toString (99999999999999991611392 : ℤ) := by
  have accepted : Equation.read "x = 100000000000000000000000" =
      .ok (ofSides [⟨1, 1⟩] [⟨100000000000000000000000, 0⟩]) := by
    decide +kernel
  have found : ((ofSides [⟨1, 1⟩] [⟨100000000000000000000000, 0⟩]).solve {}).map
      (fun report => report.outcome.realRoots) = .ok [⟨100000000000000000000000, none, 3⟩] := by
    decide +kernel
  have isText : RealRoot.text ⟨100000000000000000000000, none, 3⟩ = "100000000000000000000000" := by
    decide +kernel
  have value : IsInteger 100000000000000000000000 99999999999999991611392 := by
    have facts : (100000000000000000000000 : Binary64).isWhole = true ∧
        (100000000000000000000000 : Binary64).truncate = 99999999999999991611392 := by
      decide +kernel
    obtain ⟨finite, number, exact⟩ := Binary64.isWhole_iff.mp facts.1
    have integer : IsInteger 100000000000000000000000 number := ⟨finite, exact⟩
    rwa [← facts.2, integer.truncate_eq]
  cases solved : (ofSides [⟨1, 1⟩] [⟨100000000000000000000000, 0⟩]).solve {} with
  | error misuse => rw [solved] at found; cases found
  | ok report =>
    rw [solved] at found
    refine ⟨_, report, _, accepted, solved, Except.ok.inj found, value, isText, ?_⟩
    rw [isText]
    decide +kernel

end Equation

end Quadratics
