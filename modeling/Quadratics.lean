import Quadratics.Equation.Trace
import Quadratics.Main
import Quadratics.Solution.Session
import Quadratics.Proofs.Binary64.Nearest
import Quadratics.Proofs.Equation.Grammar
import Quadratics.Proofs.Equation.Scanning
import Quadratics.Proofs.Binary64.Zeros
import Quadratics.Proofs.Binary64.Operations
import Quadratics.Proofs.Binary64.Precision
import Quadratics.Proofs.Binary64.Places
import Quadratics.Proofs.Binary64.SquareRoot
import Quadratics.Proofs.Equation.Collection
import Quadratics.Proofs.Equation.Grouping
import Quadratics.Proofs.Equation.CanonicalForm
import Quadratics.Proofs.Decimal.Nearest
import Quadratics.Proofs.Equation.Reading
import Quadratics.Proofs.Equation.Polynomial
import Quadratics.Proofs.Equation.WholeCoefficients
import Quadratics.Proofs.Solution.Quadratic
import Quadratics.Proofs.Solution.Coherence
import Quadratics.Proofs.Solution.Sign
import Quadratics.Proofs.Solution.IntegerRoots
import Quadratics.Proofs.Solution.WholeRoots
import Quadratics.Proofs.Text.OverflowWords
import Quadratics.Proofs.Solution.ShownNumbers
import Quadratics.Proofs.Solution.Overflow
import Quadratics.Proofs.Decimal.Shortest
import Quadratics.Proofs.Decimal.Whole
import Quadratics.Proofs.Binary64.Integers
import Quadratics.Proofs.Equation.Printing
import Quadratics.Proofs.Equation.Obtained
import Quadratics.Proofs.Equation.RoundTrip
import Quadratics.Proofs.Equation.Cursor
import Quadratics.Proofs.Equation.CursorScanner
import Quadratics.Proofs.Equation.CursorAgreement
import Quadratics.Proofs.Equation.Spans
import Quadratics.Proofs.Fraction.Expansion
import Quadratics.Proofs.Fraction.Words
import Quadratics.Proofs.CommandLine
import Quadratics.Proofs.Solution.RootErrors
import Quadratics.Proofs.Solution.VanishingRoots
import Quadratics.Proofs.Solution.ExactRoots
import Quadratics.Proofs.Solution.TooLarge
import Quadratics.Proofs.Binary64.Opposites
import Quadratics.Proofs.Equation.Mirrored
import Quadratics.Proofs.Solution.Mirrored
import Quadratics.Proofs.Binary64.Reflections
import Quadratics.Proofs.Fraction.Neighbours
import Quadratics.Proofs.Fraction.Closest
import Quadratics.Proofs.Fraction.Nearest
import Quadratics.Proofs.Equation.Reflected
import Quadratics.Proofs.Equation.Overrun
import Quadratics.Proofs.Solution.History
import Quadratics.Proofs.Solution.Reflected
import Quadratics.Proofs.Equation.Faults
import Quadratics.Proofs.Equation.Layout
import Quadratics.Proofs.Equation.Neutral
import Quadratics.Proofs.Decimal.Search
import Quadratics.Proofs.Binary64.FewPlaces
import Quadratics.Proofs.Text.Decimals
import Quadratics.Proofs.Text.Signs
import Quadratics.Proofs.Solution.ShownSigns
import Quadratics.Proofs.Fraction.Turns
import Quadratics.Proofs.TermSums
import Quadratics.Proofs.Equation.LoneTerms
import Quadratics.Proofs.Binary64.ManyPlaces
