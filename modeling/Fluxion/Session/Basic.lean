import Fluxion.Plot.Export
import Fluxion.Session.Integral

/-!
# Sessions

A session has a configuration and remembers two things: the last full analysis, and the outcome of
the last plotting, be it figures or a failure.  Every request takes the text as it was entered.
Only `updatePlots` and `analyse` change a session, and exports act on the outcome that is kept.
-/

namespace Fluxion

/-- A derivative as it is shown: the function as it was entered, and the
simplified tree. -/
structure Derivative where
  function : String
  tree : Expr Float

namespace Derivative

/-- The derivative of a formula in user notation.  Only text that cannot be
read has none. -/
def ofText (function : String) : Except Formula.ParseFault Derivative := do
  let normal : Formula.Normal Float ← Formula.normalize function
  return ⟨function, normal.tree.derivative variableName⟩

/-- What is shown of a derivative. -/
def text (derivative : Derivative) : String :=
  Record.derivativeText derivative.function derivative.tree.text

/-- What a user is shown: the derivative, or the reason there is none.  An
input field left alone is answered with a request to fill it. -/
def messageOf (function : String) : String :=
  if Formula.isUntouched function then Integral.noFunctionText
  else
    match ofText function with
    | .ok derivative => derivative.text
    | .error fault => Record.errorText fault.message

end Derivative

/-- What one request for everything shows.  The figures are not part of it;
the session keeps them by themselves. -/
structure Analysis where
  function : String
  derivativeText : String
  integral : Integral

/-- What a calculator remembers between requests.  The configuration never changes. -/
structure Session where
  config : Config
  lastAnalysis : Option Analysis
  /-- the outcome of the last plotting -/
  plotted : Option (Except Failure Plot.Figures)

namespace Session

/-- A session in which nothing has happened yet. -/
def start (config : Config) : Session := ⟨config, none, none⟩

variable [Quadrature.NodeTable]

/-! ### Requests that leave the session as it is -/

/-- The integral of a function, with the limits and the function as they
were entered. -/
def integral (session : Session) (function lower upper : String) : Integral :=
  Integral.ofTexts session.config.quadrature function lower upper

/-- The curves of a function as it was entered, over the range that is
configured.  Nothing of this is remembered. -/
def plots (session : Session) (function : String) : Except Failure Plot.Figures :=
  Plot.Figures.ofText session.config function

/-- The outcome of the last plotting: figures, or what kept them from being
made.  Where nothing was plotted, that is what keeps them. -/
def lastPlots (session : Session) : Except Failure Plot.Figures :=
  session.plotted.getD (.error .nothingCalculated)

section Exports

variable {m : Type → Type} [Monad m]

/-- Writes the samples of the last figures into a file.  Where there are no
figures, what kept them from being made is what the export fails with. -/
def exportTable (surroundings : Surroundings m) (session : Session) (path : String) :
    ExceptT Failure m Unit := do
  let figures ← session.lastPlots
  figures.saveTable surroundings path

/-- Draws the last figures into a directory, and tells the paths of the files.
Pictures that were drawn before one fails are left where they are. -/
def exportPlots (surroundings : Surroundings m) (session : Session) (directory : String) :
    ExceptT Failure m (List String) := do
  let figures ← session.lastPlots
  figures.savePictures surroundings session.config.plot directory

end Exports

/-! ### Requests that the session remembers -/

/-- Plots a function and keeps the outcome, a failure as well as figures.
Exports then act on what is kept. -/
def updatePlots (session : Session) (function : String) :
    Except Failure Plot.Figures × Session :=
  let outcome := session.plots function
  (outcome, { session with plotted := some outcome })

/-- Differentiates, integrates and plots, and keeps the analysis and the
outcome of the plotting.  Nothing of this fails: what goes wrong is told in
the analysis or kept with the figures. -/
def analyse (session : Session) (function lower upper : String) : Analysis × Session :=
  let analysis : Analysis :=
    ⟨function, Derivative.messageOf function, session.integral function lower upper⟩
  let (_, session) := session.updatePlots function
  (analysis, { session with lastAnalysis := some analysis })

end Session

end Fluxion
