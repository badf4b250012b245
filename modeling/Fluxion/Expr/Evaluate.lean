import Fluxion.Expr.Basic

/-!
# Checked evaluation

A formula is compiled before it is evaluated.  The compiled formula knows the variable `x`, numbers
and operations, and nothing else: a tree that mentions another variable does not compile.

A value is only handed out where it exists.  Division by zero, arguments outside the real domain
of a function or a power, and overflow in a power or a function are faults of the place in the
formula where they happen, and the first fault in order of evaluation is the fault of the whole.
Sums, products and quotients may overflow on the way; what they make of it decides.
-/

namespace Fluxion

/-- An operation whose real domain is not all numbers: a power, or a function. -/
inductive Partial where
  | power
  | function (f : Elementary)
  deriving DecidableEq, Repr

/-- The name of the operation that a fault of the domain mentions. -/
def Partial.name : Partial → String
  | power => "pow"
  | function f => f.name

/-- Why a formula has no value.  Which point was asked for and which formula
it was is added by whoever calls.  A fault of the domain carries the argument
that was outside. -/
inductive EvalFault (K : Type) where
  | divisionByZero
  | domain (operation : Partial) (argument : K)
  | overflow
  deriving Repr

/-- A formula of the one variable, ready to be evaluated.  It has neither
names nor constants to look up: a variable is the point, a constant its
number.  So evaluating it cannot meet an unknown name. -/
inductive Compiled (K : Type) where
  | point
  | const (value : K)
  | add (left right : Compiled K)
  | sub (left right : Compiled K)
  | mul (left right : Compiled K)
  | div (left right : Compiled K)
  | pow (base exponent : Compiled K)
  | call (function : Elementary) (argument : Compiled K)
  deriving Repr

variable {K : Type} [Scalar K]

/-- Compiles a tree; fails with the first variable, from left to right, that
is not `x`.  Every node becomes the node of the same operation, and named
constants their numbers. -/
def Expr.compile : Expr K → Except String (Compiled K)
  | var name => if name = variableName then .ok .point else .error name
  | const c => .ok (.const c)
  | named c => .ok (.const c.value)
  | add u v => do return .add (← u.compile) (← v.compile)
  | sub u v => do return .sub (← u.compile) (← v.compile)
  | mul u v => do return .mul (← u.compile) (← v.compile)
  | div u v => do return .div (← u.compile) (← v.compile)
  | pow u v => do return .pow (← u.compile) (← v.compile)
  | call f u => do return .call f (← u.compile)

namespace Compiled

/-- A quotient whose divisor is not zero.  Both zeros count. -/
def checkedQuotient (a b : K) : Except (EvalFault K) K :=
  if Scalar.isZero b then .error .divisionByZero else .ok (a / b)

/-- A power with its faults: zero has no negative powers, a negative base has whole
powers only, and a value that leaves the finite numbers while both operands are finite
is an overflow.  Operands that are not finite are passed on. -/
def checkedPower (a b : K) : Except (EvalFault K) K :=
  if Scalar.isZero a && Scalar.isNegative b then .error .divisionByZero
  else if Scalar.isNegative a && !Scalar.isWhole b then .error (.domain .power a)
  else
    let value := Scalar.pow a b
    if !Scalar.isFinite value && Scalar.isFinite a && Scalar.isFinite b then .error .overflow
    else .ok value

/-- The value of a function with its faults: an argument outside the real
domain, and an overflow as for powers.  The domain is looked at first. -/
def checkedCall (f : Elementary) (a : K) : Except (EvalFault K) K :=
  if !f.inDomain a then .error (.domain (.function f) a)
  else
    let value := f.value a
    if !Scalar.isFinite value && Scalar.isFinite a then .error .overflow else .ok value

/-- The value of the formula at a point, or the first fault on the way to it.
Operands are evaluated from left to right before the operation that needs
them.  The result is not looked at here, so it need not be finite. -/
def evaluate (x : K) : Compiled K → Except (EvalFault K) K
  | point => .ok x
  | const c => .ok c
  | add u v => do return (← u.evaluate x) + (← v.evaluate x)
  | sub u v => do return (← u.evaluate x) - (← v.evaluate x)
  | mul u v => do return (← u.evaluate x) * (← v.evaluate x)
  | div u v => do checkedQuotient (← u.evaluate x) (← v.evaluate x)
  | pow u v => do checkedPower (← u.evaluate x) (← v.evaluate x)
  | call f u => do checkedCall f (← u.evaluate x)

end Compiled

end Fluxion
