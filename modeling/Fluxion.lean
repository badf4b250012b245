import Fluxion.Callable
import Fluxion.Command.Arguments
import Fluxion.Command.Help
import Fluxion.Command.Run
import Fluxion.Config
import Fluxion.Decimal.Binary
import Fluxion.Decimal.Layout
import Fluxion.Decimal.Numeral
import Fluxion.Decimal.Reading
import Fluxion.Decimal.Rounded
import Fluxion.Decimal.Shortest
import Fluxion.Expr.Antiderivative
import Fluxion.Expr.Basic
import Fluxion.Expr.Derivative
import Fluxion.Expr.Evaluate
import Fluxion.Expr.Latex
import Fluxion.Expr.Pole
import Fluxion.Expr.Simplify
import Fluxion.Expr.Text
import Fluxion.Failure
import Fluxion.Formula.Fault
import Fluxion.Formula.Grammar
import Fluxion.Formula.Lexer
import Fluxion.Formula.Normal
import Fluxion.Formula.Token
import Fluxion.Grid
import Fluxion.Name
import Fluxion.Plot.Export
import Fluxion.Plot.Figures
import Fluxion.Plot.Picture
import Fluxion.Plot.Series
import Fluxion.Plot.Table
import Fluxion.Quadrature.Adaptive
import Fluxion.Quadrature.Basic
import Fluxion.Quadrature.Integral
import Fluxion.Quadrature.Kronrod
import Fluxion.Quadrature.Legendre
import Fluxion.Quadrature.Sampling
import Fluxion.Record.Basic
import Fluxion.Record.Document
import Fluxion.Scalar
import Fluxion.Scalar.Binary64
import Fluxion.Session.Basic
import Fluxion.Session.Integral
import Fluxion.Session.Request
import Fluxion.Surroundings
import Fluxion.Text.Ascii
import Fluxion.Text.Blank
import Fluxion.Toml.Basic
import Fluxion.Toml.Quoted
import Fluxion.Toml.Reader
import Fluxion.Toml.Scalar
import Fluxion.Main
import Fluxion.Proofs.Exact
import Fluxion.Proofs.Value
import Fluxion.Proofs.Jet
import Fluxion.Proofs.Refinement
import Fluxion.Proofs.Simplification
import Fluxion.Proofs.Differentiation
import Fluxion.Proofs.Integration
import Fluxion.Proofs.Derivation
import Fluxion.Proofs.Outcome
import Fluxion.Proofs.Recognition
import Fluxion.Proofs.Balance
import Fluxion.Proofs.Qualification
import Fluxion.Proofs.Exponentials
import Fluxion.Proofs.Renaming
import Fluxion.Proofs.Normalizing
import Fluxion.Proofs.SignedDigit
import Fluxion.Proofs.Lexing
import Fluxion.Proofs.SurfaceReading
import Fluxion.Proofs.Phrase
import Fluxion.Proofs.Printing
import Fluxion.Proofs.Screening
import Fluxion.Proofs.RoundTrip
import Fluxion.Proofs.NormalForm
import Fluxion.Proofs.Rendering
import Fluxion.Proofs.Binary64
import Fluxion.Proofs.Compilation
import Fluxion.Proofs.Overflow
import Fluxion.Proofs.Sampling
import Fluxion.Proofs.Subdivision
import Fluxion.Proofs.AdaptiveLoop
import Fluxion.Proofs.CheckedEvaluation
import Fluxion.Proofs.Leaves
import Fluxion.Proofs.Variables
import Fluxion.Proofs.Attribution
import Fluxion.Proofs.Records
import Fluxion.Proofs.Messages
import Fluxion.Proofs.Integrals
import Fluxion.Proofs.Exports
import Fluxion.Proofs.History
import Fluxion.Proofs.Tables
import Fluxion.Proofs.Cumulative
import Fluxion.Proofs.Figures
import Fluxion.Proofs.Segments
import Fluxion.Proofs.Parts
import Fluxion.Proofs.Poles
import Fluxion.Proofs.Markup
import Fluxion.Proofs.Passes
import Fluxion.Proofs.Placement
import Fluxion.Proofs.Parentheses
import Fluxion.Proofs.Faults
import Fluxion.Proofs.Indices
import Fluxion.Proofs.Located
import Fluxion.Proofs.Linear
import Fluxion.Proofs.Limits
import Fluxion.Proofs.Rounds
import Fluxion.Proofs.ZeroSearch
import Fluxion.Proofs.Vanishing
import Fluxion.Proofs.Signs
import Fluxion.Proofs.Rounding
import Fluxion.Proofs.NearestFloat
import Fluxion.Proofs.ShortestDecimals
import Fluxion.Proofs.ExactValues
import Fluxion.Proofs.ReadingBack
