import Peg.Language.Assignment
import Peg.Language.Calculator
import Peg.Language.Color
import Peg.Language.Json
import Peg.Language.Sexpr
import Peg.Language.Sum
import Peg.Session
import Peg.Proofs.Derivation.Basic
import Peg.Proofs.Derivation.Consumption
import Peg.Proofs.Derivation.Sound
import Peg.Proofs.Simulation.Basic
import Peg.Proofs.Simulation.Grammar
import Peg.Proofs.Depth
import Peg.Proofs.Derivation.Adequacy
import Peg.Proofs.LeftRecursion
import Peg.Proofs.Recognition
import Peg.Proofs.Termination
import Peg.Proofs.Leaves
import Peg.Proofs.Flatten
import Peg.Proofs.Separation
import Peg.Proofs.Algebra
import Peg.Proofs.Repetition
import Peg.Proofs.Verbatim
import Peg.Proofs.Keyword
import Peg.Proofs.Scan
import Peg.Proofs.Calculator.Expression
import Peg.Proofs.Calculator.Reading
import Peg.Proofs.Calculator.Values
import Peg.Proofs.Calculator.Evaluate
import Peg.Proofs.Sum.Expression
import Peg.Proofs.Sum.Reading
import Peg.Proofs.Sum.Integer
import Peg.Proofs.Json.Document
import Peg.Proofs.Json.Reading
import Peg.Proofs.Json.Acceptance
import Peg.Proofs.Json.Progress
import Peg.Proofs.Memory
import Peg.Proofs.Labels
import Peg.Proofs.Interruption
import Peg.Proofs.Brackets
import Peg.Proofs.Sexpr.Expression
import Peg.Proofs.Sexpr.Reading
import Peg.Proofs.Text.Replace
import Peg.Proofs.Text.Delimited
import Peg.Proofs.Window
import Peg.Proofs.Printing
import Peg.Proofs.Describe.Lines
import Peg.Proofs.Describe.Faithful
import Peg.Proofs.Assignment
