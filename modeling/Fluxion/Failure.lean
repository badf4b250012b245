import Fluxion.Config
import Fluxion.Expr.Pole
import Fluxion.Plot.Series

/-!
# Failures

Whatever can keep the calculator from an answer.  Each part of the library has errors of its own;
a `Failure` is one of them together with the stage of the work at which it arose.  An error keeps
its message wherever it ends up.
-/

namespace Fluxion

/-- The stages of the calculator's work.  Every failure arises at one of them,
and keeps it wherever the failure is kept. -/
inductive Stage where
  | parsing
  | evaluation
  | symbolic
  | integration
  | bounds
  | plotting
  | configuration
  | exporting
  deriving DecidableEq, Repr

/-- What a stage is called. -/
def Stage.name : Stage → String
  | parsing => "parsing"
  | evaluation => "evaluation"
  | symbolic => "symbolic"
  | integration => "integration"
  | bounds => "bounds"
  | plotting => "plotting"
  | configuration => "configuration"
  | exporting => "export"

/-- Why something cannot be kept in a file: because it has no written form, or
because the system does not take it. -/
inductive FileFault where
  /-- a column of a table lacks a header or a cell -/
  | ragged
  /-- the system refuses, and says why -/
  | refused (reason : String)
  deriving DecidableEq, Repr

/-- What is said about a file that is not written.  The system's reasons are
passed on as they are. -/
def FileFault.message : FileFault → String
  | ragged => "every series needs a header and one value per x"
  | refused reason => reason

/-- Why there is no answer.  Each case is an error of one part of the library,
as it is, so nothing of what the part said is lost. -/
inductive Failure where
  | parsing (fault : Formula.ParseFault)
  | evaluation (error : EvalError Float)
  | symbolic (error : SymbolicError Float)
  | integration (error : Quadrature.IntegrationError)
  | bounds (error : Quadrature.BoundsError)
  /-- a curve without a single value -/
  | noValues (view : Plot.View)
  /-- a picture that could not be drawn, with what the drawing says -/
  | undrawn (reason : String)
  | configuration (error : ConfigError)
  | file (fault : FileFault)
  /-- nothing was plotted yet -/
  | nothingCalculated

namespace Failure

/-- The stage at which a failure arises.  What was never calculated fails
where it is exported. -/
def stage : Failure → Stage
  | parsing _ => .parsing
  | evaluation _ => .evaluation
  | symbolic _ => .symbolic
  | integration _ => .integration
  | bounds _ => .bounds
  | noValues _ => .plotting
  | undrawn _ => .plotting
  | configuration _ => .configuration
  | file _ => .exporting
  | nothingCalculated => .exporting

/-- What is said about a failure.  A failure that comes from a part of the
library says what that part says. -/
def message : Failure → String
  | parsing fault => fault.message
  | evaluation error => error.message
  | symbolic error => error.message
  | integration error => error.message
  | bounds error => error.message
  | noValues view => "no finite values to plot for " ++ view.title
  | undrawn reason => "failed to draw plot: " ++ reason
  | configuration error => error.message
  | file fault => fault.message
  | nothingCalculated => "nothing has been calculated yet"

end Failure

end Fluxion
