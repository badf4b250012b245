import Fluxion.Scalar

/-!
# Sample points

Evenly spaced points of an interval, and slopes read off values on both sides of a point.  The
function behind the values may be undefined in places.
-/

namespace Fluxion.Grid

variable {K : Type} [Scalar K]

/-- Evenly spaced points from the first to the last.  The last point is met
exactly, whatever rounding makes of the step.  A single point is the first. -/
def points (first last : K) : Nat → List K
  | 0 => []
  | 1 => [first]
  | cells + 2 =>
    let step := (last - first) / Scalar.ofInt (Int.ofNat (cells + 1))
    (List.range (cells + 1)).map (fun k => first + Scalar.ofInt (Int.ofNat k) * step) ++ [last]

/-- As many points as asked for. -/
theorem length_points (first last : K) (n : Nat) : (points first last n).length = n := by
  match n with
  | 0 => rfl
  | 1 => rfl
  | cells + 2 => simp [points]

/-- The slope of the chord between the points one step to either side, if the
function has values at both and the quotient is finite.  The function need not
have a value at the point itself. -/
def slope? (f : K → Option K) (step x : K) : Option K := do
  let forward ← f (x + step)
  let backward ← f (x - step)
  let slope := (forward - backward) / (Scalar.ofInt 2 * step)
  if Scalar.isFinite slope then some slope else none

end Fluxion.Grid
