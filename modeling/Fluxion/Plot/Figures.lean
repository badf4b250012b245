import Fluxion.Failure
import Fluxion.Formula.Normal
import Fluxion.Grid
import Fluxion.Plot.Table
import Fluxion.Quadrature.Integral

/-!
# Figures

A function, its derivative and its integral, sampled over one grid.  The derivative is symbolic
where it has a value, and a slope taken from the function's values elsewhere.  The integral is the
symbolic antiderivative if there is one, and otherwise the quadrature from the left end of the
range.  A sample without a value is a gap, so every formula has figures.
-/

namespace Fluxion.Plot

/-- The three curves of a function over common abscissae, with the function as
it was entered. -/
structure Figures where
  function : String
  xs : List Float
  values : Series Float
  derivative : Series Float
  integral : Series Float

variable [Quadrature.NodeTable]

/-- The integrals from a lower limit to each sample point: all at once, or one by one
where one of them fails.  So only the points whose own integral fails are gaps. -/
def areas (f : Callable Float) (settings : Quadrature.Settings) (lower : Float)
    (xs : List Float) : List (Option Float) :=
  match Quadrature.cumulative f.eval settings (some lower) xs with
  | .ok values => values.map some
  | .error _ =>
    xs.map fun x => (Quadrature.integrate f.eval settings lower x).toOption.map (·.value)

/-- The slopes at sample points: the value of the derivative where it can be
called, and the slope of a chord elsewhere.  Where the chord has none either
there is a gap. -/
def slopes (f : Callable Float) (derivative : Option (Callable Float)) (step : Float)
    (xs : List Float) : List (Option Float) :=
  xs.map fun x => (derivative.bind (·.eval? x)).orElse fun _ => Grid.slope? f.eval? step x

namespace Figures

/-- What is plotted when no function was entered, so that there is always
something to see. -/
def defaultFunction : String := "x^2"

/-- The curves of a tree, under the text it was read from.  The third curve is that of
the antiderivative where there is one that can be called, and else the area from the
left end of the range.  Only a tree that cannot be called has no curves. -/
def ofTree (plot : PlotSettings) (quadrature : Quadrature.Settings) (function : String)
    (tree : Expr Float) : Except (EvalError Float) Figures := do
  let xs := Grid.points plot.xMin plot.xMax plot.samples
  let f ← Callable.ofExpr tree
  let derivative := (Callable.ofExpr (tree.derivative variableName)).toOption
  let antiderivative := (tree.antiderivative variableName).toOption.bind fun integral =>
    (Callable.ofExpr integral).toOption
  let integrals :=
    match antiderivative with
    | some integral => xs.map integral.eval?
    | none => areas f quadrature plot.xMin xs
  return {
    function, xs
    values := ⟨.function, xs, xs.map f.eval?⟩
    derivative := ⟨.derivative, xs, slopes f derivative plot.derivativeStep xs⟩
    integral := ⟨.integral, xs, integrals⟩ }

/-- The curves of a formula in user notation.  Only text that cannot be read,
or a tree that cannot be called, keeps figures from being made.  An input
field left alone counts as the default function. -/
def ofText (config : Config) (text : String) : Except Failure Figures := do
  let function := if Formula.isUntouched text then defaultFunction else text
  let normal : Formula.Normal Float ← (Formula.normalize function).mapError Failure.parsing
  (ofTree config.plot config.quadrature function normal.tree).mapError Failure.evaluation

/-- The curve of a view. -/
def series (figures : Figures) : View → Series Float
  | .function => figures.values
  | .derivative => figures.derivative
  | .integral => figures.integral

/-- The samples of the three curves, one column each, over their common abscissae. -/
def table (figures : Figures) : Table :=
  ⟨figures.xs, ["f", "df", "F"],
    [figures.values.ys, figures.derivative.ys, figures.integral.ys]⟩

end Figures

end Fluxion.Plot
