import Fluxion.Quadrature.Basic

/-!
# Sampling an integrand

A quadrature rule knows its integrand by its values alone.  A `Sampling` is a computation that asks
for values: it names a point, receives what the integrand has there, and goes on from the answer.
Nothing else of the integrand enters, so the same sampling runs against every integrand, and the
points at which it asks are part of what it does.

A sample that fails, or that is not finite, is a failure of the integration.
-/

namespace Fluxion.Quadrature

/-- A function that can be sampled, and can fail.  Whoever integrates sees no
more of a formula than this. -/
abbrev Integrand : Type := Float → Except (EvalError Float) Float

/-- What a sample makes of an integrand's answer: only finite values count. -/
def finiteAnswer : Except (EvalError Float) Float → Except IntegrationError Float
  | .error error => .error (.eval error)
  | .ok value => if value.isFinite then .ok value else .error .notFinite

/-- A computation that asks for values of an integrand, and can fail.  What it
does next may depend on every answer so far.  It is a tree of all that can
happen, with one branch for each answer. -/
inductive Sampling (α : Type) where
  | done (result : α)
  | fail (error : IntegrationError)
  | ask (point : Float) (next : Except (EvalError Float) Float → Sampling α)

namespace Sampling

variable {α β : Type}

/-- Goes on with the result, if there is one. -/
def bind : Sampling α → (α → Sampling β) → Sampling β
  | done result, next => next result
  | fail error, _ => fail error
  | ask point answered, next => ask point fun answer => (answered answer).bind next

/-- Computations that sample one after the other; the first failure ends them. -/
instance : Monad Sampling where
  pure := done
  bind := bind

/-- The result against an integrand.  The same computation may be run against
many of them, and each answers every question alike, whenever it is asked. -/
def run (f : Integrand) : Sampling α → Except IntegrationError α
  | done result => .ok result
  | fail error => .error error
  | ask point answered => (answered (f point)).run f

/-- The points at which an integrand is asked for its value, in order.  After a
failure there are no more.  A point that is asked for twice is listed twice. -/
def points (f : Integrand) : Sampling α → List Float
  | done _ | fail _ => []
  | ask point answered => point :: (answered (f point)).points f

end Sampling

/-- The finite value of the integrand at a point.  Anything else ends
the computation. -/
def sample (x : Float) : Sampling Float :=
  .ask x fun answer =>
    match finiteAnswer answer with
    | .ok value => .done value
    | .error error => .fail error

end Fluxion.Quadrature
