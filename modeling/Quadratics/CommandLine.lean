import Quadratics.Equation.Printer
import Quadratics.Equation.Reader
import Quadratics.Solution.Printer
import Quadratics.Solution.Solver

/-!
# The command line

The program takes one equation, a switch for a verbose report, and two options
with a number each.  Options may stand in front of the equation or behind it,
each at most once, and a number stands behind its option as the next argument or
after an equals sign.  An argument that begins with a minus sign is an option,
even where a number is due, until a double minus ends the options.  Behind a
single minus stand the letters of switches.

A switch for help is answered where it is met: what stands in front of it must be
understood, and what is behind it does not matter.

`CommandLine.read` says what the arguments ask for, and `CommandLine.run` what
the program then writes and how it exits.
-/

namespace Quadratics

set_option autoImplicit false

namespace CommandLine

/-! ## What the arguments ask for -/

/-- What has been found among the arguments so far. -/
structure Found where
  /-- The equation. -/
  equation : Option String := none
  /-- Was a verbose report asked for? -/
  verbose : Bool := false
  /-- Was help asked for?  Nothing is looked for behind that. -/
  help : Bool := false
  /-- The decimal places. -/
  places : Option Nat := none
  /-- The largest denominator. -/
  denominatorBound : Option Int := none
  deriving DecidableEq

/-- The options that come with a number. -/
inductive Valued where
  /-- The decimal places. -/
  | places
  /-- The largest denominator. -/
  | denominatorBound
  deriving DecidableEq

/-- A natural number in digits, with or without a plus sign. -/
def natural? (characters : List Char) : Option Nat :=
  let unsigned := if characters.head? = some '+' then characters.drop 1 else characters
  if unsigned.isEmpty || !unsigned.all Char.isDigit then none
  else some (Nat.ofDigitChars 10 unsigned 0)

/-- An equation found among the arguments, if it is the first. -/
def Found.withEquation (found : Found) (equation : String) : Option Found :=
  if found.equation.isSome then none else some { found with equation := some equation }

/-- The switch found among the arguments, if it is the first. -/
def Found.withVerbose (found : Found) : Option Found :=
  if found.verbose then none else some { found with verbose := true }

/-- Switches found behind a minus sign, by their letters, up to one for help. -/
def Found.withSwitches (found : Found) : List Char → Option Found
  | [] => some found
  | 'v' :: letters => found.withVerbose.bind fun found => found.withSwitches letters
  | 'h' :: _ => some { found with help := true }
  | _ => none

/-- A number found for an option, if it is the first and within the range. -/
def Found.withNumber (found : Found) (option : Valued) (characters : List Char) : Option Found :=
  match option, natural? characters with
  | _, none => none
  | .places, some number =>
      if found.places.isSome ∨ 18446744073709551616 ≤ number then none
      else some { found with places := some number }
  | .denominatorBound, some number =>
      if found.denominatorBound.isSome ∨ number < 1 ∨ 9223372036854775808 ≤ number then none
      else some { found with denominatorBound := some number }

/-- The option of a name, which stands behind two minus signs. -/
def valued? (name : List Char) : Option Valued :=
  if name = "precision".toList then some .places
  else if name = "max-denominator".toList then some .denominatorBound
  else none

/-- An argument, with regard to what may follow it. -/
inductive Argument where
  /-- No option: the equation, or a number that is due. -/
  | plain
  /-- The end of the options. -/
  | endOfOptions
  /-- Switches, by their letters. -/
  | switches (letters : List Char)
  /-- An option whose number is the next argument. -/
  | option (option : Valued)
  /-- An option with its number. -/
  | optionWith (option : Valued) (characters : List Char)
  /-- An option that there is not. -/
  | unknown
  deriving DecidableEq

/-- The option that stands behind two minus signs. -/
def classifyLong (written : List Char) : Argument :=
  let name := written.takeWhile fun character => character != '='
  let value := written.dropWhile fun character => character != '='
  match value, valued? name with
  | [], some option => .option option
  | [], none =>
      if name = "verbose".toList then .switches ['v']
      else if name = "help".toList then .switches ['h']
      else .unknown
  | _ :: characters, some option => .optionWith option characters
  | _ :: _, none => .unknown

/-- What an argument is before the end of the options. -/
def classify (argument : String) : Argument :=
  match argument.toList with
  | ['-', '-'] => .endOfOptions
  | '-' :: '-' :: written => classifyLong written
  | '-' :: letter :: letters => .switches (letter :: letters)
  | _ => .plain

/-- Take every argument as an equation. -/
def scanPlain (found : Found) (arguments : List String) : Option Found :=
  arguments.foldlM Found.withEquation found

/-- Go through the arguments from the first, up to a switch for help. -/
def scan (found : Found) : List String → Option Found
  | [] => some found
  | argument :: rest =>
      match classify argument with
      | .plain => (found.withEquation argument).bind fun found => scan found rest
      | .endOfOptions => scanPlain found rest
      | .switches letters =>
          (found.withSwitches letters).bind fun found =>
            if found.help then some found else scan found rest
      | .optionWith option characters =>
          (found.withNumber option characters).bind fun found => scan found rest
      | .option option =>
          match rest with
          | [] => none
          | number :: rest =>
              if classify number = .plain then
                (found.withNumber option number.toList).bind fun found => scan found rest
              else none
      | .unknown => none

/-- What can be asked for. -/
inductive Request where
  /-- How the program is called. -/
  | help
  /-- The report on an equation. -/
  | solve (source : String) (settings : Settings)
  deriving DecidableEq

/-- What is asked for by what was found; without an equation, only help can be. -/
def Found.request? (found : Found) : Option Request :=
  if found.help then some .help
  else
    found.equation.map fun equation =>
      .solve equation
        ⟨found.verbose, found.places.getD defaultPlaces,
          found.denominatorBound.getD defaultDenominatorBound⟩

/-- What the arguments ask for, if they can be understood. -/
def read (arguments : List String) : Option Request :=
  (scan {} arguments).bind Found.request?

/-! ## What the program does -/

/-- What the program writes, and its exit status. -/
structure Response where
  /-- The text on standard output. -/
  output : String
  /-- The text on standard error. -/
  complaint : String
  /-- The exit status. -/
  status : UInt32
  deriving DecidableEq

/-- How the program is called. -/
def usage : String :=
  "Usage: computor [OPTIONS] <EQUATION>"

/-- The lines of the help. -/
def helpLines : List String :=
  [ "Solve a polynomial equation of degree " ++ toString Equation.solvableDegree.toNat ++
      " or less",
    "",
    usage,
    "",
    "Arguments:",
    "  <EQUATION>  The equation to solve (e.g. \"5 * x^0 + 4 * x^1 = 4 * x^0\")",
    "",
    "Options:",
    "  -v, --verbose",
    "          Explain each step of the solution",
    "      --precision <PRECISION>",
    "          Decimal places shown for non-integral values [default: " ++
      toString defaultPlaces ++ "]",
    "      --max-denominator <MAX_DENOMINATOR>",
    "          The largest denominator used when showing a value as a fraction [default: " ++
      toString defaultDenominatorBound ++ "]",
    "  -h, --help",
    "          Print help"]

/-- Help was asked for. -/
def helped : Response :=
  ⟨String.intercalate "\n" helpLines ++ "\n", "", 0⟩

/-- The arguments could not be understood. -/
def rejected : Response :=
  ⟨"", usage ++ "\n", 2⟩

/-- The response to an equation. -/
def respond (source : String) (settings : Settings) : Response :=
  match Equation.read source with
  | .error refusal => ⟨"", "InvalidExpression - " ++ refusal.message ++ "\n", 1⟩
  | .ok equation =>
      let reduced := equation.reduce
      match reduced.solve settings with
      | .ok report =>
          ⟨"Reduced form: " ++ reduced.text ++ "\n\n" ++ report.text ++ "\n", "", 0⟩
      | .error misuse => ⟨"Reduced form: " ++ reduced.text ++ "\n\n", misuse.message ++ "\n", 3⟩

/-- The response to the arguments of the program. -/
def run (arguments : List String) : Response :=
  match read arguments with
  | none => rejected
  | some .help => helped
  | some (.solve source settings) => respond source settings

end CommandLine

end Quadratics
