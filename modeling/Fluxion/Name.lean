import Fluxion.Scalar

/-!
# Names

The closed list of names a formula can mention: nine functions of one argument, two constants and
the variable `x`.  In normal form every function and constant carries the qualifier `math.`; users
write bare names and a few further spellings, which only the reader of formulas knows.
-/

namespace Fluxion

/-- The functions of one argument.  The list is closed, so what is said of
each of them is said of all. -/
inductive Elementary where
  | sin
  | cos
  | tan
  | arcsin
  | arccos
  | arctan
  | exp
  | log
  | sqrt
  deriving DecidableEq, Repr

/-- The named constants. -/
inductive Constant where
  | pi
  | e
  deriving DecidableEq, Repr

/-- The one variable of a formula. -/
def variableName : String := "x"

/-- What every qualified name begins with. -/
def qualifier : String := "math."

namespace Elementary

/-- The functions, in the order in which messages list them. -/
def all : List Elementary := [sin, cos, tan, arcsin, arccos, arctan, exp, log, sqrt]

/-- The name of a function. -/
def name : Elementary → String
  | sin => "sin"
  | cos => "cos"
  | tan => "tan"
  | arcsin => "arcsin"
  | arccos => "arccos"
  | arctan => "arctan"
  | exp => "exp"
  | log => "log"
  | sqrt => "sqrt"

/-- The name of a function in normal form. -/
def qualifiedName (f : Elementary) : String := qualifier ++ f.name

/-- The function of a bare name. -/
def ofName? (name : String) : Option Elementary := all.find? (·.name == name)

/-- The function of a qualified name. -/
def ofQualifiedName? (name : String) : Option Elementary := all.find? (·.qualifiedName == name)

variable {K : Type} [Scalar K]

/-- The value at an argument, with no regard to the domain. -/
def value : Elementary → K → K
  | sin => Scalar.sin
  | cos => Scalar.cos
  | tan => Scalar.tan
  | arcsin => Scalar.arcsin
  | arccos => Scalar.arccos
  | arctan => Scalar.arctan
  | exp => Scalar.exp
  | log => Scalar.log
  | sqrt => Scalar.sqrt

/-- Whether an argument lies in the real domain.  The tangent counts as
defined everywhere, as it is for machine numbers. -/
def inDomain : Elementary → K → Bool
  | log, a => Scalar.isPositive a
  | sqrt, a => Scalar.atMost (Scalar.ofInt 0) a
  | arcsin, a => Scalar.atMost (Scalar.ofInt (-1)) a && Scalar.atMost a (Scalar.ofInt 1)
  | arccos, a => Scalar.atMost (Scalar.ofInt (-1)) a && Scalar.atMost a (Scalar.ofInt 1)
  | _, _ => true

end Elementary

namespace Constant

/-- The constants, in the order in which messages list them. -/
def all : List Constant := [pi, e]

/-- The name of a constant. -/
def name : Constant → String
  | pi => "pi"
  | e => "e"

/-- The name of a constant in normal form. -/
def qualifiedName (c : Constant) : String := qualifier ++ c.name

/-- The constant of a bare name. -/
def ofName? (name : String) : Option Constant := all.find? (·.name == name)

/-- The constant of a qualified name. -/
def ofQualifiedName? (name : String) : Option Constant := all.find? (·.qualifiedName == name)

/-- The number a constant stands for. -/
def value {K : Type} [Scalar K] : Constant → K
  | pi => Scalar.pi
  | e => Scalar.e

end Constant

end Fluxion
