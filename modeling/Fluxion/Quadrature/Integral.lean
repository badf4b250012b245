import Fluxion.Quadrature.Adaptive
import Fluxion.Quadrature.Legendre

/-!
# Integrals of sampled functions

The integral between two limits, and the cumulative integral over sample points.  Limits must be
finite; the integral from a point to itself is zero without a sample, and limits in reverse order
change the sign of the value and nothing else.
-/

namespace Fluxion.Quadrature

variable [NodeTable]

/-- The integral over an interval whose ends are finite and in order, by the
method that is configured. -/
def forwardIntegral (settings : Settings) (lower upper : Float) : Sampling Outcome :=
  match settings.method with
  | .adaptive => adaptive settings lower upper
  | .gaussLegendre nodes => gaussLegendre nodes lower upper

/-- The same outcome with the value's sign changed.  The error estimate
has no sign. -/
def Outcome.negated (outcome : Outcome) : Outcome := { outcome with value := -outcome.value }

/-- The integral between two limits.  Nothing is sampled where a limit is not
finite, or where both are equal.  Limits in reverse order are put in order
first, and the sign is changed afterwards. -/
def integral (settings : Settings) (lower upper : Float) : Sampling Outcome :=
  if !lower.isFinite || !upper.isFinite then .fail (.bounds .notFinite)
  else if lower == upper then .done ⟨0.0, 0.0, 0⟩
  else if upper < lower then do
    let reversed ← forwardIntegral settings upper lower
    return reversed.negated
  else forwardIntegral settings lower upper

/-- The integral of an integrand between two limits, which is the run of the sampling
against it.  This is the only way in which an integrand meets a rule. -/
def integrate (f : Integrand) (settings : Settings) (lower upper : Float) :
    Except IntegrationError Outcome :=
  (integral settings lower upper).run f

/-- Whether no point is below the one before it.  A point that is no number is
out of order beside any other. -/
def isOrdered : List Float → Bool
  | x :: y :: rest => decide (x ≤ y) && isOrdered (y :: rest)
  | _ => true

/-- The integrals from a lower limit to each sample point; without a lower
limit they start at the first point.  Each is an integration of its own from
the same limit, and the first that fails ends them all. -/
def cumulative (f : Integrand) (settings : Settings) (lower : Option Float) (xs : List Float) :
    Except IntegrationError (List Float) :=
  if !isOrdered xs then .error (.bounds .unordered)
  else
    match xs with
    | [] => .ok []
    | first :: _ =>
      xs.mapM fun x => (integrate f settings (lower.getD first) x).map (·.value)

end Fluxion.Quadrature
