import Fluxion.Expr.Basic

/-!
# Derivatives

The derivative of a formula by the rules for sums, products, quotients, powers and compositions.
A power has three rules: which one applies depends on whether the variable occurs in the base and
in the exponent.  Nothing is simplified here.
-/

namespace Fluxion

namespace Expr

variable {K : Type} [Scalar K]

/-- The outer derivative of a function, times the derivative of its argument.
The nine outer derivatives are trees in the argument; where one is a
reciprocal, the derivative of the argument is its numerator. -/
def chainRule (f : Elementary) (u u' : Expr K) : Expr K :=
  match f with
  | .exp => call .exp u * u'
  | .log => u' / u
  | .sqrt => u' / (int 2 * call .sqrt u)
  | .sin => call .cos u * u'
  | .cos => -call .sin u * u'
  | .tan => u' / squared (call .cos u)
  | .arcsin => u' / call .sqrt (int 1 - squared u)
  | .arccos => -u' / call .sqrt (int 1 - squared u)
  | .arctan => u' / (int 1 + squared u)

/-- The derivative with respect to a variable, rule by rule and not
simplified.  A power is treated by which of its operands mention the variable,
so that no logarithm is taken where the exponent is constant. -/
def diff (name : String) : Expr K → Expr K
  | var other => if other = name then int 1 else int 0
  | const _ | named _ => int 0
  | add u v => u.diff name + v.diff name
  | sub u v => u.diff name - v.diff name
  | mul u v => u.diff name * v + u * v.diff name
  | div u v => (u.diff name * v - v.diff name * u) / squared v
  | pow u v =>
    if v.mentions name then
      if u.mentions name then
        u ^ v * (v.diff name * call .log u + v * u.diff name / u)
      else
        u ^ v * call .log u * v.diff name
    else
      v * u ^ (v - int 1) * u.diff name
  | call f u => chainRule f u (u.diff name)

section Rules

variable {name : String} {u v : Expr K}

/-- The product rule. -/
theorem diff_mul : (mul u v).diff name = u.diff name * v + u * v.diff name := rfl

/-- The quotient rule. -/
theorem diff_div : (div u v).diff name = (u.diff name * v - v.diff name * u) / squared v := rfl

/-- The chain rule, whatever the function. -/
theorem diff_call {f : Elementary} : (call f u).diff name = chainRule f u (u.diff name) := rfl

/-- The power rule holds for a constant exponent, whether or not the base is
constant too. -/
theorem diff_pow_of_exponent (exponent : v.mentions name = false) :
    (pow u v).diff name = v * u ^ (v - int 1) * u.diff name :=
  if_neg (Bool.eq_false_iff.1 exponent)

/-- The rule of the exponential, for a constant base. -/
theorem diff_pow_of_base (base : u.mentions name = false) (exponent : v.mentions name = true) :
    (pow u v).diff name = u ^ v * call .log u * v.diff name :=
  (if_pos exponent).trans (if_neg (Bool.eq_false_iff.1 base))

/-- The general rule, by the logarithm of the base. -/
theorem diff_pow (base : u.mentions name = true) (exponent : v.mentions name = true) :
    (pow u v).diff name = u ^ v * (v.diff name * call .log u + v * u.diff name / u) :=
  (if_pos exponent).trans (if_pos base)

end Rules

end Expr

end Fluxion
