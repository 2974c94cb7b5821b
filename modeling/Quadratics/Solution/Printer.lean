import Quadratics.Equation.Refusal
import Quadratics.Solution.Basic

/-!
# The text of a report

A report is a list of lines: the degree, the discriminant if there is one, and
the solutions.  A verbose report also gives the coefficients and explains each
step.
-/

namespace Quadratics

set_option autoImplicit false

/-- The text of a real root: its decimal form, behind the fraction if one is kept. -/
def RealRoot.text (root : RealRoot) : String :=
  let decimal := root.value.shown root.places
  match root.fraction with
  | some fraction => Fraction.text fraction ++ " (" ++ decimal ++ ")"
  | none => decimal

/-- The real part of the numerator of a conjugate root, with the operator after
it.  A vanishing real part is left out. -/
def ConjugateRoot.realText (root : ConjugateRoot) : String :=
  if root.real.sameNumber 0 then if root.negative then "-" else ""
  else root.real.shown root.places ++ (if root.negative then " - " else " + ")

/-- The text of a conjugate root. -/
def ConjugateRoot.text (root : ConjugateRoot) : String :=
  "(" ++ root.realText ++ "√" ++ root.radicand.shown root.places ++ "i)/" ++
    root.denominator.shown root.places

namespace Report

/-! ## Explanations -/

/-- The lines in front of a verbose report. -/
def introduction (report : Report) : List String :=
  let shown := fun value => Binary64.shown value report.settings.places
  [ "A polynomial equation has the form 'ax² + bx + c = 0'",
    "Here a is '" ++ shown report.coefficients.quadratic ++ "', b is '" ++
      shown report.coefficients.linear ++ "' and c is '" ++
      shown report.coefficients.constant ++ "'",
    ""]

/-- The lines that explain the discriminant. -/
def discriminantExplanation (shown : String) : List String :=
  [ "The discriminant is written 'Δ' and its formula is 'Δ = b² - 4ac'",
    "In our situation, Δ is equal to '" ++ shown ++ "'"]

/-- The lines that explain how the solutions are found. -/
def explanation (report : Report) : List String :=
  match report.outcome with
  | .one _ =>
      if report.degree = 1 then
        [ "When the polynomial degree is 1 the equation can simply be solved by hand",
          "In this case 'x = -c/b'"]
      else
        [ "When the discriminant is equal to 0 there is one and only one solution to the equation",
          "In this case, the solution formula is 'x = -b/2a'"]
  | .two _ _ =>
      [ "When the discriminant is strictly positive two solutions can be found using the " ++
          "discriminant itself",
        "The solution formulas are 'x1 = (-b-√Δ)/2a' and 'x2 = (-b+√Δ)/2a'"]
  | .conjugates _ _ =>
      [ "When the discriminant is strictly negative no solutions can be found among the real " ++
          "numbers 'ℝ'",
        "We need complex numbers (involving 'i') to find a solution to this equation",
        "The solution formulas are 'x1 = (-b - i√(-Δ))/2a' and 'x2 = (-b + i√(-Δ))/2a'"]
  | .unsupported =>
      [ "When the polynomial degree is greater than " ++ toString Equation.solvableDegree.toNat ++
          " the equation cannot be solved using the discriminant alone"]
  | .everyNumber => []
  | .noNumber => []
  | .tooLarge => []

/-! ## Parts of a report -/

/-- The lines on the discriminant. -/
def discriminantLines (report : Report) : List String :=
  match report.discriminant with
  | none => []
  | some discriminant =>
      let shown := discriminant.shown report.settings.places
      ("Discriminant: " ++ shown) ::
        if report.settings.verbose then discriminantExplanation shown else []

/-- The lines on the solutions. -/
def outcomeLines (report : Report) : List String :=
  match report.outcome with
  | .everyNumber =>
      [ "This equation is trivial",
        "Every real number 'ℝ' is a solution of this equation"]
  | .noNumber =>
      [ "This equation is trivial",
        "The equation has no solution, it is never true"]
  | .one root =>
      (if report.discriminant.isSome then ["The discriminant is equal to 0"] else []) ++
        ["The solution is: " ++ root.text]
  | .two first second =>
      [ "The discriminant is strictly positive",
        "The two solutions are:",
        first.text,
        second.text]
  | .conjugates first second =>
      [ "The discriminant is strictly negative",
        "The two complex solutions are:",
        first.text,
        second.text]
  | .unsupported =>
      [ "The polynomial degree is strictly greater than " ++
          toString Equation.solvableDegree.toNat ++ ", I can't solve it"]
  | .tooLarge => ["The coefficients are too large, the solutions can't be represented"]

/-- The lines of a report. -/
def lines (report : Report) : List String :=
  let whenVerbose := fun lines => if report.settings.verbose then lines else []
  whenVerbose report.introduction ++
    ["Polynomial degree: " ++ toString report.degree.toNat] ++
    report.discriminantLines ++
    whenVerbose report.explanation ++
    report.outcomeLines

/-- The text of a report. -/
def text (report : Report) : String :=
  String.intercalate "\n" report.lines

end Report

end Quadratics
