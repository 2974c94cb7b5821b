import Quadratics.Solution.Solver

/-!
# A session with an equation

An equation is worked with step by step: it is reduced, its coefficients are
taken, it is solved.  Each of these steps needs the reduced form and leaves the
equation in it, also when solving meets a misuse.
-/

namespace Quadratics

set_option autoImplicit false

/-- The steps that leave an equation reduced. -/
inductive Step where
  /-- Bring the equation to its reduced form. -/
  | reduce
  /-- Take the coefficients. -/
  | coefficients
  /-- Solve the equation. -/
  | solve (settings : Settings)
  deriving DecidableEq

/-- What a step gives back. -/
inductive Reply where
  /-- Nothing but the changed equation. -/
  | done
  /-- The coefficients. -/
  | coefficients (coefficients : Coefficients)
  /-- The report of a solution. -/
  | report (report : Report)
  /-- The step was a misuse. -/
  | misuse (misuse : Misuse)
  deriving DecidableEq

/-- What a step gives back on an equation. -/
def Step.reply (step : Step) (equation : Equation) : Reply :=
  match step with
  | .reduce => .done
  | .coefficients => .coefficients equation.coefficients
  | .solve settings =>
      match equation.solve settings with
      | .ok report => .report report
      | .error misuse => .misuse misuse

/-- What a step gives back, and the equation that it leaves. -/
def Step.perform (step : Step) (equation : Equation) : Reply × Equation :=
  (step.reply equation, equation.reduce)

end Quadratics
