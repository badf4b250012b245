import Fluxion.Expr.Latex
import Fluxion.Expr.Pole
import Fluxion.Record.Basic

/-!
# Integrals as they are shown

What becomes of a function and two limits entered as text.  An antiderivative is preferred; its
value between the limits is compared with quadrature, which also stands in where there is no
antiderivative, where it has no finite value, or where a pole lies between the limits.  Text that
is no formula is not integrated at all.
-/

namespace Fluxion

/-- An antiderivative and the integral it gives, with the function and the
limits that were asked for. -/
structure ExactIntegral where
  function : String
  lower : Float
  upper : Float
  antiderivative : Expr Float
  value : Float
  /-- how far quadrature is from the value, where it gives one -/
  discrepancy : Option Float

namespace ExactIntegral

/-- The exact integral of a tree, if its antiderivative gives a finite value.
Both are computed from the tree, not from its text.  The difference of the
limits is checked here once more, since it may overflow. -/
def ofTree? [Quadrature.NodeTable] (quadrature : Quadrature.Settings) (function : String)
    (lower upper : Float) (tree : Expr Float) : Option ExactIntegral := do
  let antiderivative ← (tree.antiderivative variableName).toOption
  let value ← (tree.definiteIntegral variableName lower upper).toOption
  guard value.isFinite
  let discrepancy := Record.discrepancy? function lower upper value quadrature
  return { function, lower, upper, antiderivative, value, discrepancy }

/-- The record of an exact integral: a success without an error. -/
def record (integral : ExactIntegral) : Record :=
  Record.symbolic integral.function integral.lower integral.upper integral.value

/-- The antiderivative, then the value between the limits. -/
def text (integral : ExactIntegral) : String :=
  Record.antiderivativeText integral.function integral.antiderivative.text ++ "\n"
    ++ Record.definiteText integral.function integral.lower integral.upper integral.value

end ExactIntegral

/-- What is shown of an integral. -/
inductive Integral where
  | noFunction (function : String)
  /-- a limit is no finite number -/
  | noLimits (function : String)
  | exact (integral : ExactIntegral)
  /-- what became of it without an antiderivative -/
  | recorded (record : Record)

namespace Integral

section Making

variable [Quadrature.NodeTable]

/-- The integral of a function between limits that are numbers already.
Quadrature steps in wherever there is no exact integral.  Text that is no
formula is told at once, with the limits in the record. -/
def between (quadrature : Quadrature.Settings) (function : String) (lower upper : Float) :
    Integral :=
  match (Formula.normalize function : Except Formula.ParseFault (Formula.Normal Float)) with
  | .error fault => recorded (Record.unreadable function lower upper fault)
  | .ok normal =>
    match ExactIntegral.ofTree? quadrature function lower upper normal.tree with
    | some integral => exact integral
    | none => recorded (Record.ofQuadrature function lower upper quadrature)

/-- The integral of a function between limits, all as they were entered.  Missing
input is told apart from limits that are none, and it is looked for first. -/
def ofTexts (quadrature : Quadrature.Settings) (function lower upper : String) : Integral :=
  if Formula.isUntouched function then noFunction function
  else
    match readLimit lower, readLimit upper with
    | .ok lower, .ok upper => between quadrature function lower upper
    | _, _ => noLimits function

end Making

/-! ### Reading integrals off -/

/-- What is shown where nothing was entered to integrate. -/
def noFunctionText : String := "Please enter a function"

/-- What is shown where a limit is no finite number. -/
def noLimitsText : String := "Please enter valid limits"

/-- The function as it was entered. -/
def function : Integral → String
  | noFunction function => function
  | noLimits function => function
  | exact integral => integral.function
  | recorded record => record.function

/-- The record, unless the input was refused before any integration.  An exact
integral has a record like that of a quadrature. -/
def record? : Integral → Option Record
  | exact integral => some integral.record
  | recorded record => some record
  | _ => none

/-- The lower limit, unless the input was refused. -/
def lower? (integral : Integral) : Option Float := integral.record?.map (·.lower)

/-- The upper limit, unless the input was refused. -/
def upper? (integral : Integral) : Option Float := integral.record?.map (·.upper)

/-- The antiderivative, if the integral rests on one. -/
def antiderivative? : Integral → Option (Expr Float)
  | exact integral => some integral.antiderivative
  | _ => none

/-- The antiderivative as it is typeset. -/
def latex? (integral : Integral) : Option String := integral.antiderivative?.map Expr.latex

/-- How far quadrature is from an exact integral, where it gives a value.
Other integrals have nothing to compare. -/
def discrepancy? : Integral → Option Float
  | exact integral => integral.discrepancy
  | _ => none

/-- What a user is shown. -/
def text : Integral → String
  | noFunction _ => noFunctionText
  | noLimits _ => noLimitsText
  | exact integral => integral.text
  | recorded record => record.displayText

end Integral

end Fluxion
