import Fluxion.Name

/-!
# Expressions

The trees that formulas denote.  There are five binary operations, the elementary functions and
three kinds of leaves.  Negation has no node of its own: `-u` is the product `(-1) · u`.

`==` compares trees node by node and constants by the carrier's own comparison of numbers.
-/

namespace Fluxion

/-- A formula over constants from `K`.  Variables keep their name, so that a
tree with a foreign one can be built, inspected and then refused. -/
inductive Expr (K : Type) where
  | var (name : String)
  | const (value : K)
  | named (constant : Constant)
  | add (left right : Expr K)
  | sub (left right : Expr K)
  | mul (left right : Expr K)
  | div (left right : Expr K)
  | pow (base exponent : Expr K)
  | call (function : Elementary) (argument : Expr K)
  deriving BEq, Repr

namespace Expr

variable {K : Type}

/-- Sums are written with the operator. -/
instance : Add (Expr K) := ⟨add⟩
/-- Differences are written with the operator. -/
instance : Sub (Expr K) := ⟨sub⟩
/-- Products are written with the operator. -/
instance : Mul (Expr K) := ⟨mul⟩
/-- Quotients are written with the operator. -/
instance : Div (Expr K) := ⟨div⟩
/-- Powers are written with the operator, the exponent being a tree itself. -/
instance : Pow (Expr K) (Expr K) := ⟨pow⟩

/-! Operators stand for constructors; these equations take them apart. -/

theorem add_def (u v : Expr K) : u + v = add u v := rfl

theorem sub_def (u v : Expr K) : u - v = sub u v := rfl

theorem mul_def (u v : Expr K) : u * v = mul u v := rfl

theorem div_def (u v : Expr K) : u / v = div u v := rfl

theorem pow_def (u v : Expr K) : u ^ v = pow u v := rfl

/-- The number of nodes.  Leaves count one, and every recursion over trees in
this library goes down in it. -/
def size : Expr K → Nat
  | var _ | const _ | named _ => 1
  | add u v | sub u v | mul u v | div u v | pow u v => u.size + v.size + 1
  | call _ u => u.size + 1

/-- Whether a variable occurs.  Nothing is simplified first, so a variable
that cancels occurs as well. -/
def mentions (name : String) : Expr K → Bool
  | var other => other == name
  | const _ | named _ => false
  | add u v | sub u v | mul u v | div u v | pow u v => u.mentions name || v.mentions name
  | call _ u => u.mentions name

/-- The first variable, from left to right, other than the given one.  It is
what a refusal to call a tree names. -/
def foreignVariable? (name : String) : Expr K → Option String
  | var other => if other = name then none else some other
  | const _ | named _ => none
  | add u v | sub u v | mul u v | div u v | pow u v =>
    match u.foreignVariable? name with
    | some other => some other
    | none => v.foreignVariable? name
  | call _ u => u.foreignVariable? name

variable [Scalar K]

/-- The constant with a whole value. -/
abbrev int (n : Int) : Expr K := const (Scalar.ofInt n)

/-- The second power of a tree. -/
abbrev squared (u : Expr K) : Expr K := pow u (int 2)

/-- Negation is the product with minus one, as the trees have no node for it. -/
instance : Neg (Expr K) := ⟨fun u => mul (int (-1)) u⟩

theorem neg_def (u : Expr K) : -u = mul (int (-1)) u := rfl

/-- Whether a tree is the constant that negation multiplies by. -/
def isMinusOne : Expr K → Bool
  | const c => Scalar.isMinusOne c
  | _ => false

/-- Splits `c · u` into `c` and `u`; anything else has the coefficient one.
Only a constant on the left counts, which is where simplification moves it.
So a constant is its own term with the coefficient one. -/
def splitCoefficient : Expr K → K × Expr K
  | mul (const c) u => (c, u)
  | u => (Scalar.ofInt 1, u)

/-- The value of the tree where a variable has a given value, in the carrier's
own arithmetic.  Other variables have no value.  Nothing is checked on the
way: what the carrier makes of a division by zero is what comes out. -/
def valueAt (name : String) (x : K) : Expr K → K
  | var other => if other = name then x else Scalar.undefined
  | const c => c
  | named c => c.value
  | add u v => u.valueAt name x + v.valueAt name x
  | sub u v => u.valueAt name x - v.valueAt name x
  | mul u v => u.valueAt name x * v.valueAt name x
  | div u v => u.valueAt name x / v.valueAt name x
  | pow u v => Scalar.pow (u.valueAt name x) (v.valueAt name x)
  | call f u => f.value (u.valueAt name x)

end Expr

end Fluxion
