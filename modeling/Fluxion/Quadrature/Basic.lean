import Fluxion.Callable

/-!
# Quadrature: settings and outcomes

The numbers that the quadrature rules share: the settings of an integration, its outcome and the
ways it can fail.
-/

namespace Fluxion.Quadrature

/-- How the interval is sampled. -/
inductive Method where
  /-- bisection of the worst part, with fifteen nodes on each part -/
  | adaptive
  /-- a fixed number of Gauss–Legendre nodes, compared with twice as many -/
  | gaussLegendre (nodes : Nat)
  deriving DecidableEq, Repr

/-- Settings of an integration: what error is tolerated, how finely the
interval may be cut, and which rule is used. -/
structure Settings where
  absoluteTolerance : Float
  relativeTolerance : Float
  /-- how many parts the interval may be cut into -/
  partLimit : Nat
  method : Method

/-- The tolerance, absolute and relative, that nothing else is asked for. -/
def defaultTolerance : Float := 1.49e-8

/-- The settings that hold where a configuration says nothing of quadrature. -/
def Settings.default : Settings := ⟨defaultTolerance, defaultTolerance, 50, .adaptive⟩

/-- A value with an estimate of its absolute error, and the price of both in
samples of the integrand.  The estimate is no bound: an integrand may hide
between the samples. -/
structure Outcome where
  value : Float
  estimate : Float
  evaluations : Nat

/-- Why limits or sample points are refused. -/
inductive BoundsError where
  | notANumber (text : String)
  | notFinite
  /-- sample points must not decrease -/
  | unordered
  deriving DecidableEq, Repr

/-- The text of a refusal of limits or sample points. -/
def BoundsError.message : BoundsError → String
  | notANumber text => Formula.quoted text ++ " is not a number"
  | notFinite => "integration limits must be finite"
  | unordered => "sample points must be in increasing order"

/-- Why an integration fails.  An error of the integrand is kept as it is, so
its message names the formula and the point.  Where the tolerance is not
reached, the value and estimate that the loop stands at are told. -/
inductive IntegrationError where
  /-- the tolerance is not reached with as many parts as are allowed -/
  | notConverged (value estimate : Float)
  | notFinite
  | eval (error : EvalError Float)
  | bounds (error : BoundsError)
  /-- there is no Gauss–Legendre rule with so many nodes -/
  | invalidRule (reason : String)

/-- The text of a failed integration.  Errors from elsewhere, of an evaluation
or of a missing rule, keep their own text. -/
def IntegrationError.message : IntegrationError → String
  | notConverged value estimate =>
    "tolerance not reached (value " ++ Numeral.text value ++ " with estimated error "
      ++ Numeral.text estimate ++ ")"
  | notFinite => "the integral is not finite"
  | eval error => error.message
  | bounds error => error.message
  | invalidRule reason => "invalid quadrature rule: " ++ reason

/-- The sum of some numbers from left to right.  It starts with the negative zero,
which changes no number it is added to, so the sum of one number is that number. -/
def total (values : List Float) : Float := values.foldl (· + ·) (-0.0)

/-- The larger of two numbers; what is not a number loses. -/
def greatest (a b : Float) : Float := if a.isNaN then b else if b ≤ a || b.isNaN then a else b

/-- The smaller of two numbers; what is not a number loses. -/
def least (a b : Float) : Float := if a.isNaN then b else if a ≤ b || b.isNaN then a else b

end Fluxion.Quadrature
