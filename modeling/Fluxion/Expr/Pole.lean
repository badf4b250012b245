import Fluxion.Expr.Antiderivative

/-!
# Poles

Where a formula stops being defined.  `poleFactors` collects the parts whose zeros are poles:
denominators, bases of negative powers and the cosine under a tangent, each taken apart into
factors that can vanish on their own.  `interiorZero?` looks for a zero of such a part strictly
inside a grid of sample points: a sample that is zero, a change of sign between neighbours, or a
local minimum of the absolute value that refines to zero, as at a double root.
-/

namespace Fluxion

namespace Expr

variable {K : Type} [Scalar K]

/-- Whether a tree is a constant above zero. -/
def isPositiveConst : Expr K → Bool
  | const c => Scalar.isPositive c
  | _ => false

/-- Whether a tree is a constant below zero. -/
def isNegativeConst : Expr K → Bool
  | const c => Scalar.isNegative c
  | _ => false

/-- The factors of a product that may vanish on their own.  A quotient
vanishes with its numerator, a positive power with its base, and an
exponential never.  Any other tree with the variable is a factor as it is,
since it may vanish. -/
def vanishingFactors (name : String) (e : Expr K) : List (Expr K) :=
  if !e.mentions name then []
  else
    match e with
    | mul u v => vanishingFactors name u ++ vanishingFactors name v
    | div u _ => vanishingFactors name u
    | pow u n => if n.isPositiveConst then vanishingFactors name u else [pow u n]
    | call .sqrt u => vanishingFactors name u
    | call .exp _ => []
    | e => [e]

/-- The parts whose zeros are poles: divisors, bases of negative powers and
the cosine under a tangent, each taken apart into factors that can vanish on
their own.  A power counts as negative if its exponent is written as a
negative constant. -/
def poleFactors (name : String) : Expr K → List (Expr K)
  | div u v => u.poleFactors name ++ v.poleFactors name ++ v.vanishingFactors name
  | pow u n =>
    u.poleFactors name ++ n.poleFactors name
      ++ (if n.isNegativeConst then u.vanishingFactors name else [])
  | call .tan u => u.poleFactors name ++ (call .cos u).vanishingFactors name
  | call _ u => u.poleFactors name
  | add u v | sub u v | mul u v => u.poleFactors name ++ v.poleFactors name
  | var _ | const _ | named _ => []

/-- How many cells a scan of an interval has. -/
def scanCells : Nat := 128

/-- The points that cut an interval into the cells of a scan, ends included.
Poles at the ends are not looked for. -/
def scanGrid (lower upper : K) : List K :=
  let step := (upper - lower) / Scalar.ofInt (Int.ofNat scanCells)
  (List.range (scanCells + 1)).map fun k => lower + step * Scalar.ofInt (Int.ofNat k)

/-- How often a bracket is narrowed to find a minimum. -/
def narrowings : Nat := 100

/-- Narrows a bracket around the smallest absolute value by the golden
section, each time to the side with the smaller value.  Both inner points are
evaluated in every step, as nothing is carried from one to the next. -/
def narrow (size : K → K) (ratio : K) : Nat → K → K → K × K
  | 0, low, high => (low, high)
  | steps + 1, low, high =>
    let left := high - ratio * (high - low)
    let right := low + ratio * (high - low)
    if Scalar.less (size left) (size right) then narrow size ratio steps low right
    else narrow size ratio steps left high

/-- The point of a bracket where the absolute value is smallest, and that value. -/
def smallestOn (name : String) (g : Expr K) (low high : K) : K × K :=
  let size (t : K) : K := Scalar.abs (g.valueAt name t)
  let ratio : K := (Scalar.sqrt (Scalar.ofInt 5) - Scalar.ofInt 1) / Scalar.ofInt 2
  let (low, high) := narrow size ratio narrowings low high
  let point := Scalar.half * (low + high)
  (point, size point)

/-- A point of the grid and the value there. -/
structure Sample (K : Type) where
  point : K
  value : K

/-- A zero next to the middle one of three samples: the sample itself, a change of
sign to either side, or a small minimum of the absolute value.  They are tried in this
order, and a neighbour without a finite value is passed over. -/
def zeroBeside? (name : String) (g : Expr K) (tolerance : K) (before here after : Sample K) :
    Option K :=
  let opposite (a b : K) : Bool := Scalar.isNegative (a * b)
  if !Scalar.isFinite here.value then none
  else if Scalar.isZero here.value then some here.point
  else if Scalar.isFinite before.value && opposite before.value here.value then
    some (Scalar.half * (before.point + here.point))
  else if Scalar.isFinite after.value && opposite here.value after.value then
    some (Scalar.half * (here.point + after.point))
  else if Scalar.isFinite before.value && Scalar.isFinite after.value
      && Scalar.atMost (Scalar.abs here.value) (Scalar.abs before.value)
      && Scalar.atMost (Scalar.abs here.value) (Scalar.abs after.value) then
    let (point, least) := smallestOn name g before.point after.point
    if Scalar.atMost least tolerance then some point else none
  else none

/-- The first zero found around the inner samples.  Each inner sample is
looked at once, with both of its neighbours, so every cell is looked at from
an end that lies inside. -/
def zeroAmong? (name : String) (g : Expr K) (tolerance : K) : List (Sample K) → Option K
  | before :: here :: after :: rest =>
    match zeroBeside? name g tolerance before here after with
    | some point => some point
    | none => zeroAmong? name g tolerance (here :: after :: rest)
  | _ => none

/-- A zero strictly inside a grid.  A minimum counts as zero when it is ten orders of
magnitude below the largest sample, or below one if all samples are smaller. -/
def interiorZero? (name : String) (g : Expr K) (grid : List K) : Option K :=
  let samples := grid.map fun t => Sample.mk t (g.valueAt name t)
  let scale := samples.foldl
    (fun scale sample =>
      if Scalar.isFinite sample.value then Scalar.larger scale (Scalar.abs sample.value) else scale)
    (Scalar.ofInt 1)
  let tolerance := Scalar.ofInt 1 / Scalar.ofInt 10000000000 * scale
  zeroAmong? name g tolerance samples

/-- The first inner point of a scan where the tree has no finite value.  The
ends are left to the values of the antiderivative, so integrals up to a
singular limit can exist. -/
def irregularPoint? (name : String) (e : Expr K) (lower upper : K) : Option K :=
  let inner := ((scanGrid lower upper).take scanCells).drop 1
  inner.find? fun t => !Scalar.isFinite (e.valueAt name t)

/-- A pole strictly inside an interval, on or off the sample points.  Each
factor is searched on its own over the same grid, in the order in which
factors are found, and the first zero counts. -/
def pole? (name : String) (e : Expr K) (lower upper : K) : Option K :=
  let grid := scanGrid lower upper
  (e.poleFactors name).findSome? fun factor => interiorZero? name factor grid

/-! ### Definite integrals -/

/-- The value of an antiderivative at a limit.  It is the plain value of the
tree, refused if it is not finite.  A fault on the way is not noticed if a
finite number comes of it. -/
def valueAtLimit (name : String) (integral : Expr K) (limit : K) : Integration K K :=
  let value := integral.valueAt name limit
  if Scalar.isFinite value then .ok value else .error (.notFinite integral limit)

/-- The definite integral by the fundamental theorem: the difference of an
antiderivative at the limits, once no singularity was found between them.  The upper
limit is looked at first, and the difference itself is not checked again. -/
def definiteIntegral (name : String) (e : Expr K) (lower upper : K) : Integration K K := do
  let integral ← e.antiderivative name
  match e.irregularPoint? name lower upper with
  | some point => .error (.singular e point)
  | none =>
    match e.pole? name lower upper with
    | some point => .error (.singular e point)
    | none =>
      let top ← valueAtLimit name integral upper
      let bottom ← valueAtLimit name integral lower
      return top - bottom

end Expr

end Fluxion
