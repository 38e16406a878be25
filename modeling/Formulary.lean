import Formulary.Text.CodePoint
import Formulary.Text.CaseTable
import Formulary.Text.LowerCase
import Formulary.Token
import Formulary.Numeral
import Formulary.Lexeme
import Formulary.Juxtaposition
import Formulary.Error
import Formulary.Expr
import Formulary.Parser
import Formulary.Formulas
import Formulary.Context
import Formulary.Evaluation
import Formulary.Registry
import Formulary.Curve
import Formulary.Sampling
import Formulary.Proofs.Grammar
import Formulary.Proofs.ParserSteps
import Formulary.Proofs.Reading
import Formulary.Proofs.Products
import Formulary.Proofs.Height
import Formulary.Proofs.Floats
import Formulary.Proofs.Strict
import Formulary.Proofs.References
import Formulary.Proofs.Reuse
import Formulary.Proofs.Schedules
import Formulary.Proofs.Yields
import Formulary.Proofs.Substitution
import Formulary.Proofs.Terse
import Formulary.Proofs.Cuts
import Formulary.Proofs.Changes
import Formulary.Proofs.Ledger
import Formulary.Proofs.Reach
import Formulary.Proofs.Axes
import Formulary.Proofs.Numbers
import Formulary.Proofs.Nesting
import Formulary.Proofs.Places
import Formulary.Proofs.Segments
import Formulary.Proofs.Spelling
import Formulary.Proofs.Separators
import Formulary.Proofs.Failures
import Formulary.Proofs.Strays
import Formulary.Proofs.Outcomes
import Formulary.Proofs.Tolerances
import Formulary.Proofs.Effects
import Formulary.Proofs.Runs
import Formulary.Proofs.Machine
import Formulary.Proofs.Stack
import Formulary.Proofs.Descent
import Formulary.Proofs.Balance
