import Fluxion.Expr.Simplify
import Fluxion.Expr.Text

/-!
# Antiderivatives

Integration by rules, without a constant of integration.  An integrand that no rule matches is an
error, never a wrong answer.

The argument of a function must be linear in the variable.  Linearity is read off the derivative:
the simplified derivative has lost the variable.  Products of a power of the variable with an
exponential, a sine or a cosine go by parts; each round lowers the degree by one, so the recursion
follows a budget of degrees.
-/

namespace Fluxion

/-- Why a formula has no integral in closed form: no rule applies, the
antiderivative has no finite value at a limit, or a singularity lies between
the limits.  The formula concerned is kept for the message. -/
inductive SymbolicError (K : Type) where
  /-- no rule matches the integrand -/
  | notIntegrable (integrand : Expr K)
  /-- the antiderivative is not finite at a limit -/
  | notFinite (antiderivative : Expr K) (point : K)
  /-- the integrand is undefined inside the interval -/
  | singular (integrand : Expr K) (point : K)

/-- The text of an error, with the formula it concerns and, where there is
one, the point. -/
def SymbolicError.message {K : Type} [Scalar K] [Numeral K] : SymbolicError K → String
  | notIntegrable integrand => "no closed-form antiderivative found for " ++ integrand.text
  | notFinite antiderivative point =>
    antiderivative.text ++ " is not finite at x = " ++ Numeral.text point
  | singular integrand point =>
    integrand.text ++ " is undefined at x = " ++ Numeral.text point ++ " inside the interval"

namespace Expr

variable {K : Type} [Scalar K]

/-- The outcome of an integration.  Rules fail by naming the integrand that
they were given. -/
abbrev Integration (K : Type) : Type → Type := Except (SymbolicError K)

/-! ### Shapes of integrands -/

/-- The quotient by a constant, written without a trivial divisor: nothing is
written for one, and a sign for minus one.  Rules use it for the slopes and
coefficients that they divide by. -/
def dividedBy (e : Expr K) (a : K) : Expr K :=
  if Scalar.isOne a then e else if Scalar.isMinusOne a then -e else e / const a

/-- The slope of a function that is linear in the variable and not constant.  It is
read off the simplified derivative, in which the variable must not be left.  Slope and
intercept have to be finite, and the slope other than zero. -/
def slope? (name : String) (e : Expr K) : Option K :=
  if !e.mentions name then none
  else
    let derivative := e.derivative name
    if derivative.mentions name then none
    else
      let slope := derivative.valueAt name (Scalar.ofInt 0)
      let intercept := e.valueAt name (Scalar.ofInt 0)
      if !Scalar.isZero slope && Scalar.isFinite slope && Scalar.isFinite intercept then some slope
      else none

/-- The largest degree, up to sign, of a monomial.  It bounds how many times a
product is integrated by parts. -/
def degreeLimit : Nat := 64

/-- The coefficient and degree of `c · x ^ n` with a whole `n`.  Constants may stand
on either side of a product, and those of nested products are multiplied.  Degrees
beyond the limit are not recognised, as no rule could follow them. -/
def monomial? (name : String) : Expr K → Option (K × Int)
  | var other => if other = name then some (Scalar.ofInt 1, 1) else none
  | pow (var other) (const n) =>
    match Scalar.whole? n with
    | some degree =>
      if other = name ∧ degree.natAbs ≤ degreeLimit then some (Scalar.ofInt 1, degree) else none
    | none => none
  | mul (const c) u => (u.monomial? name).map fun (k, n) => (c * k, n)
  | mul u (const c) => (u.monomial? name).map fun (k, n) => (c * k, n)
  | _ => none

/-- The tree of `c · x ^ n`.  Neither a coefficient of one nor an exponent of
one is written. -/
def monomial (name : String) (c : K) (n : Int) : Expr K :=
  if n = 0 then const c
  else
    let power := if n = 1 then var name else pow (var name) (int n)
    if Scalar.isOne c then power else const c * power

/-- Whether a factor keeps a closed form under repeated integration: an exponential,
sine, cosine or power with constant base of a linear argument, times constants and
over constants.  Constants here are factors without the variable. -/
def isPartsFactor (name : String) : Expr K → Bool
  | mul k g =>
    if !k.mentions name then g.isPartsFactor name
    else if !g.mentions name then k.isPartsFactor name
    else false
  | div g k => !k.mentions name && g.isPartsFactor name
  | call .exp u | call .sin u | call .cos u => (u.slope? name).isSome
  | pow b u => !b.mentions name && (u.slope? name).isSome
  | _ => false

/-! ### Rules that need no further integration -/

/-- Powers of which one operand is constant: `∫ (a x + b) ^ n`, with a
logarithm at `n = -1`, and `∫ c ^ (a x + b)`.  A constant base has to be
positive, as its logarithm is taken; the base `e` needs none, and a base of
one gives the variable. -/
def integratePower (name : String) (b n : Expr K) : Integration K (Expr K) :=
  let fail : Integration K (Expr K) := .error (.notIntegrable (pow b n))
  if !n.mentions name then
    match b.slope? name with
    | none => fail
    | some a =>
      let degree := n.simplify.valueAt name (Scalar.ofInt 0)
      if !Scalar.isFinite degree then fail
      else if Scalar.isMinusOne degree then .ok ((call .log b).dividedBy a)
      else
        let next := degree + Scalar.ofInt 1
        .ok (pow b (const next) / const (next * a))
  else if !b.mentions name then
    match n.slope? name with
    | none => fail
    | some a =>
      if b == named .e then .ok ((pow b n).dividedBy a)
      else
        let c := b.valueAt name (Scalar.ofInt 0)
        if !Scalar.isPositive c then fail
        else if Scalar.isOne c then .ok (var name)
        else if Scalar.isOne a then .ok (pow b n / call .log b)
        else .ok (pow b n / (const a * call .log b))
  else fail

/-- Integrals of functions of a linear argument.  Every elementary function
has one, and each is divided by the slope of the argument.  A root goes by the
rule for powers. -/
def integrateCall (name : String) (f : Elementary) (u : Expr K) : Integration K (Expr K) :=
  match f, u.slope? name with
  | .sqrt, _ => integratePower name u (const Scalar.half)
  | f, none => .error (.notIntegrable (call f u))
  | .exp, some a => .ok ((call .exp u).dividedBy a)
  | .log, some a => .ok ((u * call .log u - u).dividedBy a)
  | .sin, some a => .ok ((-call .cos u).dividedBy a)
  | .cos, some a => .ok ((call .sin u).dividedBy a)
  | .tan, some a => .ok ((-call .log (call .cos u)).dividedBy a)
  | .arcsin, some a =>
    .ok ((u * call .arcsin u + call .sqrt (int 1 - squared u)).dividedBy a)
  | .arccos, some a =>
    .ok ((u * call .arccos u - call .sqrt (int 1 - squared u)).dividedBy a)
  | .arctan, some a =>
    .ok ((u * call .arctan u - call .log (int 1 + squared u) / int 2).dividedBy a)

/-- `∫ c x ^ n ln x` for the factors in this order.  The degree minus one is a
case of its own, where the integral is half a square of the logarithm. -/
def integrateTimesLogarithm? (name : String) (u v : Expr K) : Option (Expr K) :=
  match v with
  | call .log (var other) =>
    if other ≠ name then none
    else
      (u.monomial? name).map fun (c, n) =>
        let logarithm := call .log (var name)
        if n = -1 then const c * squared logarithm / int 2
        else
          let m : K := Scalar.ofInt (n + 1)
          monomial name c (n + 1) * (logarithm / const m - int 1 / const (m * m))
  | _ => none

/-- Quotients with a constant numerator, where a rule knows the denominator: linear
ones, monomials, powers, one plus a square, and roots.  The rules are tried in this
order, and a rule that applies and fails is not followed by another. -/
def integrateReciprocal? (name : String) (k v : Expr K) : Option (Integration K (Expr K)) :=
  let x : Expr K := var name
  match v.slope? name with
  | some a => some (.ok (k * (call .log v).dividedBy a))
  | none =>
    match v.monomial? name with
    | some (c, n) =>
      some ((integratePower name x (int (-n))).map fun power => k / const c * power)
    | none =>
      let remaining : Option (Integration K (Expr K)) :=
        if int 1 + squared x == v || squared x + int 1 == v then some (.ok (k * call .arctan x))
        else if v == call .sqrt (int 1 - squared x) then some (.ok (k * call .arcsin x))
        else
          match v with
          | call .sqrt u =>
            some ((integratePower name u (const (-Scalar.half))).map fun power => k * power)
          | _ => none
      match v with
      | pow b n =>
        if !n.mentions name then
          some ((integratePower name b (int (-1) * n).simplify).map fun power => k * power)
        else remaining
      | _ => remaining

/-- Quotients whose denominator depends on the variable.  The numerator is
constant, a logarithm over a monomial, or a multiple of the denominator's
derivative.  The last is recognised by comparing trees, so it depends on how
they are written. -/
def integrateQuotient (name : String) (u v : Expr K) : Integration K (Expr K) :=
  match if !u.mentions name then integrateReciprocal? name u v else none with
  | some result => result
  | none =>
    let logarithmic :=
      (v.monomial? name).bind fun (c, n) =>
        integrateTimesLogarithm? name (monomial name (Scalar.ofInt 1 / c) (-n)) u
    match logarithmic with
    | some result => .ok result
    | none =>
      let (k, numerator) := u.simplify.splitCoefficient
      let (l, derivative) := (v.derivative name).splitCoefficient
      if numerator == derivative && !Scalar.isZero l then
        .ok ((const k * call .log v).dividedBy l)
      else .error (.notIntegrable (u / v))

/-! ### The recursion -/

/-- How to integrate `c x ^ n` times a factor by parts.  The rules for
products take it as a parameter, so that they need not recurse themselves. -/
abbrev PartsRule (K : Type) : Type := K → Int → Expr K → Integration K (Expr K)

/-- Products of two factors that depend on the variable: a monomial times a logarithm,
or times a factor that parts are taken of, in either order.  Parts are taken only of
monomials of positive degree, whose degree falls each time. -/
def integrateProduct (byParts : PartsRule K) (name : String) (u v : Expr K) :
    Integration K (Expr K) :=
  match integrateTimesLogarithm? name u v <|> integrateTimesLogarithm? name v u with
  | some result => .ok result
  | none =>
    let parts? (u v : Expr K) : Option (Integration K (Expr K)) :=
      match u.monomial? name with
      | some (c, n) =>
        if 1 ≤ n ∧ v.isPartsFactor name then some (byParts c n v) else none
      | none => none
    match parts? u v with
    | some result => result
    | none =>
      match parts? v u with
      | some result => result
      | none => .error (.notIntegrable (u * v))

/-- Integration with a given rule for integration by parts.  Constant factors
and divisors are left in front, sums are integrated term by term, and the
first part that no rule matches is the error of the whole. -/
def integrateUsing (byParts : PartsRule K) (name : String) (e : Expr K) : Integration K (Expr K) :=
  if !e.mentions name then .ok (e * var name)
  else
    match e with
    | var _ => .ok (squared (var name) / int 2)
    | const _ | named _ => .ok (e * var name)
    | add u v => do return (← integrateUsing byParts name u) + (← integrateUsing byParts name v)
    | sub u v => do return (← integrateUsing byParts name u) - (← integrateUsing byParts name v)
    | mul u v =>
      if !u.mentions name then do return u * (← integrateUsing byParts name v)
      else if !v.mentions name then do return v * (← integrateUsing byParts name u)
      else integrateProduct byParts name u v
    | div u v =>
      if !v.mentions name then do return (← integrateUsing byParts name u) / v
      else integrateQuotient name u v
    | pow u v => integratePower name u v
    | call f u => integrateCall name f u

/-- Integration in which products may go by parts as many times as the budget
says: `∫ c x ^ n g = c x ^ n G - ∫ c n x ^ (n - 1) G`, where `G` is an
antiderivative of `g`.  The recursion is on the budget, which each round
lowers by one. -/
def integrateWithin (name : String) : Nat → Expr K → Integration K (Expr K)
  | 0 => integrateUsing (fun c n g => .error (.notIntegrable (monomial name c n * g))) name
  | budget + 1 =>
    integrateUsing
      (fun c n g => do
        let integral := (← integrateWithin name budget g).simplify
        let rest := monomial name (c * Scalar.ofInt n) (n - 1) * integral
        return monomial name c n * integral - (← integrateWithin name budget rest))
      name

/-- An antiderivative with respect to a variable, not simplified.  Its budget
for integration by parts covers every monomial that is recognised. -/
def integrate (name : String) (e : Expr K) : Integration K (Expr K) :=
  integrateWithin name degreeLimit e

/-- The simplified antiderivative.  It is what a user is shown and what the
definite integral takes values of, so both rest on one tree. -/
def antiderivative (name : String) (e : Expr K) : Integration K (Expr K) :=
  (e.integrate name).map simplify

end Expr

end Fluxion
