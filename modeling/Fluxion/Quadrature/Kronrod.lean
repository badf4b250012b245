import Fluxion.Quadrature.Sampling

/-!
# The fifteen-point rule

Seven Gauss nodes and the eight nodes that extend them to a Kronrod rule.  The rule's value is the
Kronrod sum; its error estimate scales the distance of the two sums by how much the integrand
varies, and never claims to be better than rounding allows.
-/

namespace Fluxion.Quadrature

/-- A pair of nodes at the same distance from the centre. -/
structure NodePair where
  abscissa : Float
  weight : Float
  /-- the weight in the Gauss rule, for its nodes -/
  gaussWeight : Option Float

/-- The seven pairs of nodes, from the ends of the interval to its centre.
Every other pair belongs to the coarser rule too, so comparing the two rules
costs no sample. -/
def nodePairs : List NodePair :=
  [⟨0.991455371120812639206854697526329, 0.022935322010529224963732008058970, none⟩,
   ⟨0.949107912342758524526189684047851, 0.063092092629978553290700663189204,
     some 0.129484966168869693270611432679082⟩,
   ⟨0.864864423359769072789712788640926, 0.104790010322250183839876322541518, none⟩,
   ⟨0.741531185599394439863864773280788, 0.140653259715525918745189590510238,
     some 0.279705391489276667901467771423780⟩,
   ⟨0.586087235467691130294144845693013, 0.169004726639267902826583426598550, none⟩,
   ⟨0.405845151377397166906606412076961, 0.190350578064785409913256402421014,
     some 0.381830050505118944950369775488975⟩,
   ⟨0.207784955007898467600689403773245, 0.204432940075298892414161999234649, none⟩]

/-- The weight of the centre in the sum over all fifteen nodes. -/
def centreWeight : Float := 0.209482141084727828012999174891714

/-- The weight of the centre in the sum over the seven nodes of the coarser rule. -/
def centreGaussWeight : Float := 0.417959183673469387755102040816327

/-- The samples at a pair of nodes, left and right of the centre, with the
pair they belong to. -/
structure PairSample where
  node : NodePair
  left : Float
  right : Float

/-- A part of the interval with the rule's value and error estimate on it.  It
is all that is kept of fifteen samples. -/
structure Part where
  lower : Float
  upper : Float
  value : Float
  estimate : Float

/-- The distance of machine numbers at one, from which the error of rounding
is estimated. -/
def machineEpsilon : Float := 2.220446049250313e-16

/-- The smallest number of full precision. -/
def smallestNormal : Float := 2.2250738585072014e-308

/-- The samples at a pair of nodes, the left one first.  A failure on the left
keeps the right one from being asked for. -/
def samplePair (centre halfLength : Float) (node : NodePair) : Sampling PairSample := do
  let distance := halfLength * node.abscissa
  let left ← sample (centre - distance)
  let right ← sample (centre + distance)
  return ⟨node, left, right⟩

/-- The error estimate from the distance of the two sums, the variation and
the size.  An integrand that varies much for the distance it shows is trusted
more, but never beyond what rounding allows. -/
def estimateOf (distance variation size : Float) : Float :=
  let scaled :=
    if variation != 0.0 && distance != 0.0 then
      variation * least (Float.pow (200.0 * distance / variation) 1.5) 1.0
    else distance
  if smallestNormal / (50.0 * machineEpsilon) < size then
    greatest scaled (50.0 * machineEpsilon * size)
  else scaled

/-- The rule's value and error estimate from the samples on a part.  No sample
is asked for any more, so this is mere arithmetic, and it never fails: what is
not finite is noticed later. -/
def partOfSamples (lower upper centreValue : Float) (pairs : List PairSample) : Part :=
  let halfLength := 0.5 * (upper - lower)
  let gauss := pairs.foldl
    (fun sum pair =>
      match pair.node.gaussWeight with
      | some weight => sum + weight * (pair.left + pair.right)
      | none => sum)
    (centreValue * centreGaussWeight)
  let kronrod := pairs.foldl
    (fun sum pair => sum + pair.node.weight * (pair.left + pair.right))
    (centreValue * centreWeight)
  let absolute := pairs.foldl
    (fun sum pair => sum + pair.node.weight * (pair.left.abs + pair.right.abs))
    (centreValue * centreWeight).abs
  let mean := kronrod * 0.5
  let deviation := pairs.foldl
    (fun sum pair =>
      sum + pair.node.weight * ((pair.left - mean).abs + (pair.right - mean).abs))
    (centreWeight * (centreValue - mean).abs)
  ⟨lower, upper, kronrod * halfLength,
    estimateOf ((kronrod - gauss) * halfLength).abs (deviation * halfLength.abs)
      (absolute * halfLength.abs)⟩

/-- The rule on one part: fifteen samples, the centre first, then outer pairs
before inner ones.  The first sample without a finite value ends it. -/
def measure (lower upper : Float) : Sampling Part := do
  let centre := 0.5 * (lower + upper)
  let halfLength := 0.5 * (upper - lower)
  let centreValue ← sample centre
  let pairs ← nodePairs.mapM (samplePair centre halfLength)
  return partOfSamples lower upper centreValue pairs

end Fluxion.Quadrature
