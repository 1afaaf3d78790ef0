import Calculator.Binary64.Basic
import Calculator.Builtin
import Calculator.CommandLine
import Calculator.Conversion.Form
import Calculator.Conversion.Unit
import Calculator.Decimal.Basic
import Calculator.Decimal.Layout
import Calculator.Decimal.Reading
import Calculator.Elementary
import Calculator.Error
import Calculator.Evaluation
import Calculator.Expr.Basic
import Calculator.Expr.Yard
import Calculator.Graph.Chart
import Calculator.Graph.Interpolation
import Calculator.Ink
import Calculator.Inversion
import Calculator.Json
import Calculator.Main
import Calculator.Numeral
import Calculator.Operator
import Calculator.Radix
import Calculator.Rates.Latest
import Calculator.Rates.Service
import Calculator.Reply
import Calculator.Request
import Calculator.Session
import Calculator.Shell
import Calculator.Symbols
import Calculator.Target
import Calculator.Text.Blank
import Calculator.Text.Cluster
import Calculator.Text.ClusterClass
import Calculator.Text.CodePoint
import Calculator.Text.Digit
import Calculator.Text.Letter
import Calculator.Text.Typed
import Calculator.Text.Word
import Calculator.Token.Basic
import Calculator.Token.Scan
import Calculator.Value
import Calculator.Proofs.Grammar.Definitions
import Calculator.Proofs.Grammar.Stacks
import Calculator.Proofs.Grammar.Characterization
import Calculator.Proofs.Grammar.FreeVariable
import Calculator.Proofs.Text.Trimming
import Calculator.Proofs.Request.Assignment
import Calculator.Proofs.Request.Target
import Calculator.Proofs.Session.Atomicity
import Calculator.Proofs.Session.Namespace
import Calculator.Proofs.Evaluation.Limits
import Calculator.Proofs.Request.Chain
import Calculator.Proofs.Request.Order
import Calculator.Proofs.Session.Changes
import Calculator.Proofs.Conversion.Form
import Calculator.Proofs.Grammar.Juxtaposition
import Calculator.Proofs.Conversion.Registry
import Calculator.Proofs.Request.Expression
import Calculator.Proofs.Request.Identifier
import Calculator.Proofs.Request.Named
import Calculator.Proofs.Session.Variable
import Calculator.Proofs.Evaluation.CallGraph
import Calculator.Proofs.Evaluation.Reach
import Calculator.Proofs.Session.ReadBack
import Calculator.Proofs.Shell.Transcript
import Calculator.Proofs.Session.TypedBack
import Calculator.Proofs.Grammar.Bookkeeping
import Calculator.Proofs.Token.NormalForm
import Calculator.Proofs.Evaluation.Room
import Calculator.Proofs.Evaluation.Substitution
import Calculator.Proofs.Evaluation.Deepening
import Calculator.Proofs.Request.Call
import Calculator.Proofs.Session.Directive
import Calculator.Proofs.Session.Repetition
import Calculator.Proofs.Inversion.FirstHit
import Calculator.Proofs.Session.Inversion
import Calculator.Proofs.Conversion.Split
import Calculator.Proofs.Conversion.Amount
import Calculator.Proofs.Request.Currency
import Calculator.Proofs.Conversion.Inverse
import Calculator.Proofs.Session.UnitLine
import Calculator.Proofs.Radix.ReadBack
import Calculator.Proofs.Grammar.Numbers
import Calculator.Proofs.Evaluation.Operations
import Calculator.Proofs.Evaluation.Undefined
import Calculator.Proofs.Binary64.Rounding
import Calculator.Proofs.Decimal.Rounding
import Calculator.Proofs.Decimal.Spelling
import Calculator.Proofs.Text.Ascii
import Calculator.Proofs.Radix.Digits
import Calculator.Proofs.Grammar.Literals
import Calculator.Proofs.Binary64.Truncation
import Calculator.Proofs.Evaluation.RadixFunction
import Calculator.Proofs.Request.TargetParts
import Calculator.Proofs.Session.Target
import Calculator.Proofs.Json.Grammar
import Calculator.Proofs.Json.Lexical
import Calculator.Proofs.Json.Soundness
import Calculator.Proofs.Json.Completeness
import Calculator.Proofs.Rates.Latest
import Calculator.Proofs.Rates.Service
import Calculator.Proofs.Grammar.Occurrence
import Calculator.Proofs.Session.InnerLine
import Calculator.Proofs.Graph.Extent
import Calculator.Proofs.Graph.Curve
import Calculator.Proofs.Binary64.Order
import Calculator.Proofs.Binary64.Sign
import Calculator.Proofs.Binary64.Sum
import Calculator.Proofs.Binary64.One
import Calculator.Proofs.Graph.Range
import Calculator.Proofs.Access.Checked
import Calculator.Proofs.Access.Slice
import Calculator.Proofs.Access.Scan
import Calculator.Proofs.Access.Parse
import Calculator.Proofs.Access.Call
import Calculator.Proofs.Access.Curve
import Calculator.Proofs.Access.Line
