import Fluxion.Quadrature.Sampling
import Fluxion.Scalar.Binary64

/-!
# Gauss–Legendre rules

The nodes of a rule with `n` nodes are the zeros of the Legendre polynomial of degree `n`.  They
lie close to the cosines of evenly spaced angles, from where a few steps of Newton's method reach
them.  Nodes come in pairs that differ in sign.  A node in the middle is the cosine of a right
angle, which is not exactly zero in machine numbers.

A rule is a weighted sum: it applies a function that always has a value at its nodes, one after the
other.  An integrand that can fail is handed to it with its first failure kept aside.
-/

namespace Fluxion.Quadrature

/-- A node in `[-1, 1]` with its weight. -/
structure Node where
  abscissa : Float
  weight : Float

/-- The Legendre polynomials of degrees `k + steps - 1` and `k + steps`, from
those of degrees `k - 1` and `k`. -/
def legendreFrom (x : Float) : Nat → Nat → Float → Float → Float × Float
  | 0, _, before, here => (before, here)
  | steps + 1, k, before, here =>
    let degree := Float.ofNat k
    let after := ((2.0 * degree + 1.0) * x * here - degree * before) / (degree + 1.0)
    legendreFrom x steps (k + 1) here after

/-- The Legendre polynomial of degree `n`, which is positive, and its slope,
by the recurrence of three terms. -/
def legendre (n : Nat) (x : Float) : Float × Float :=
  let (before, here) := legendreFrom x (n - 1) 1 1.0 x
  (here, Float.ofNat n * (x * here - before) / (x * x - 1.0))

/-- Steps of Newton's method towards a zero of the Legendre polynomial. -/
def polish (n : Nat) : Nat → Float → Float
  | 0, x => x
  | steps + 1, x =>
    let (value, slope) := legendre n x
    polish n steps (x - value / slope)

/-- The weight of a node, which depends on the slope of the polynomial there. -/
def nodeWeight (n : Nat) (x : Float) : Float :=
  let slope := (legendre n x).2
  2.0 / ((1.0 - x * x) * slope * slope)

/-- The `k`-th positive node, counted from one and from the outside. -/
def positiveNode (n k : Nat) : Node :=
  let guess := Float.cos (piBinary64 * (Float.ofNat k - 0.25) / (Float.ofNat n + 0.5))
  let x := polish n 6 guess
  ⟨x, nodeWeight n x⟩

/-- All nodes of a rule, from the largest to the smallest.  Those left of the
middle are the others with their signs changed.  A rule with an odd number of
nodes has one in the middle. -/
def legendreNodes (n : Nat) : List Node :=
  let positive := (List.range (n / 2)).map fun k => positiveNode n (k + 1)
  let middle :=
    if n % 2 = 1 then
      let x := Float.cos (piBinary64 / 2.0)
      [⟨x, nodeWeight n x⟩]
    else []
  positive ++ middle ++ positive.reverse.map fun node => ⟨-node.abscissa, node.weight⟩

/-- Where the rules come from: the nodes and weights of the rule with `n`
nodes, or why there is no such rule.  Whatever integrates takes the table as
it is, so a table may compute its nodes or keep printed ones. -/
class NodeTable where
  nodes : Nat → Except String (List Node)

/-- The rules whose nodes are computed.  A rule has at least two nodes. -/
abbrev computedNodes : NodeTable where
  nodes n := if n < 2 then .error "GaussLegendreError(<disabled>)" else .ok (legendreNodes n)

/-- The weighted sum of a function over some nodes, brought from `[-1, 1]` to an
interval.  The nodes are visited in order, in whatever monad the function lives. -/
def weightedSum {m : Type → Type} [Monad m] (nodes : List Node) (f : Float → m Float)
    (lower upper : Float) : m Float := do
  let terms ← nodes.mapM fun node => do
    let value ← f (0.5 * ((upper - lower) * node.abscissa + (upper + lower)))
    return value * node.weight
  return 0.5 * (upper - lower) * total terms

/-- The value of the integrand at a point; a failure is replaced by no number,
and the first one is kept aside. -/
def sampleAside (x : Float) : StateT (Option IntegrationError) Sampling Float := fun failure =>
  .ask x fun answer =>
    match finiteAnswer answer with
    | .ok value => .done (value, failure)
    | .error error => .done (0.0 / 0.0, failure.or (some error))

variable [NodeTable]

/-- The sum of a rule with `n` nodes on an interval.  A failure is reported
only after all nodes have been sampled, and then it is the first one. -/
def legendreSum (n : Nat) (lower upper : Float) : Sampling Float :=
  match NodeTable.nodes n with
  | .error reason => .fail (.invalidRule reason)
  | .ok nodes => do
    let (value, failure) ← (weightedSum nodes sampleAside lower upper).run none
    match failure with
    | some error => .fail error
    | none => .done value

/-- The rule with `2 n` nodes, and its distance from the rule with `n` nodes as error
estimate.  The coarser rule is sampled first, so its failures come first. -/
def gaussLegendre (n : Nat) (lower upper : Float) : Sampling Outcome := do
  let coarse ← legendreSum n lower upper
  let fine ← legendreSum (2 * n) lower upper
  if fine.isFinite then .done ⟨fine, (fine - coarse).abs, 3 * n⟩ else .fail .notFinite

end Fluxion.Quadrature
