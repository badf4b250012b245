import Fluxion.Expr.Evaluate
import Fluxion.Expr.Text
import Fluxion.Formula.Grammar

/-!
# Callable formulas

A formula whose only variable is `x`, together with the text it goes by in messages.  Calling it
gives a finite number or an error that names the formula and the cause.
-/

namespace Fluxion

/-- Why a formula cannot be called, or has no value at a point.  The first two
causes lie in the text of the formula, the others in a value met while
evaluating it. -/
inductive EvalCause (K : Type) where
  /-- the text is no formula in normal form -/
  | malformed (fault : Formula.GrammarFault)
  | unknownName (name : String)
  | divisionByZero (point : K)
  | domain (operation : Partial) (argument : K)
  /-- the value overflows or is undefined -/
  | notFinite (point : K)
  deriving Repr

/-- A cause, with the formula it concerns.  The formula is kept as text, since
a text that cannot be read has no tree. -/
structure EvalError (K : Type) where
  formula : String
  cause : EvalCause K
  deriving Repr

/-- What an error lists as the names that are available: the functions, the
constants and the variable, under their qualified names. -/
def availableNames : String :=
  ", ".intercalate
    ([variableName] ++ Constant.all.map (·.qualifiedName) ++ Elementary.all.map (·.qualifiedName))

/-- The text of an error: the formula between quotes, the cause and, where the
cause is a fault at a point, that point.  A fault of the domain names the
argument instead. -/
def EvalError.message {K : Type} [Numeral K] (error : EvalError K) : String :=
  let formula := Formula.quoted error.formula
  match error.cause with
  | .malformed fault => "cannot evaluate " ++ formula ++ ": " ++ fault.message
  | .unknownName name =>
    Formula.quoted name ++ " is not available in " ++ formula ++ "; allowed: " ++ availableNames
  | .divisionByZero point => "division by zero in " ++ formula ++ " at x = " ++ Numeral.text point
  | .domain operation argument =>
    operation.name ++ " is undefined for argument " ++ Numeral.text argument ++ " in " ++ formula
  | .notFinite point => formula ++ " is not finite at x = " ++ Numeral.text point

variable {K : Type} [Scalar K]

/-- A formula of the one variable, compiled, and the text it goes by.  Errors
quote that text, so two callables with one tree can still tell a user
different things.  That the compiled formula belongs to the tree is part of
the structure. -/
structure Callable (K : Type) [Scalar K] where
  source : String
  tree : Expr K
  compiled : Compiled K
  compile_tree : tree.compile = .ok compiled

namespace Callable

/-- Makes a tree callable under a name; fails on a variable other than `x`, the first
one from left to right.  Nothing else keeps a tree from being callable. -/
def ofTree (source : String) (tree : Expr K) : Except (EvalError K) (Callable K) :=
  match compiles : tree.compile with
  | .ok compiled => .ok ⟨source, tree, compiled, compiles⟩
  | .error name => .error ⟨source, .unknownName name⟩

variable [Numeral K]

/-- Makes a tree callable under its own text. -/
def ofExpr (tree : Expr K) : Except (EvalError K) (Callable K) := ofTree tree.text tree

/-- Reads a formula in normal form and makes it callable under that text.  A
foreign name is blamed by itself, every other fault of the grammar makes the
text malformed. -/
def ofNormalText (text : String) : Except (EvalError K) (Callable K) :=
  match Formula.parse text with
  | .ok tree => ofTree text tree
  | .error (.unknownName name _) => .error ⟨text, .unknownName name⟩
  | .error fault => .error ⟨text, .malformed fault⟩

/-- The finite value at a point, or the reason there is none.  A tree can evaluate
without a fault to a number that is not finite; that is refused here. -/
def eval (f : Callable K) (x : K) : Except (EvalError K) K :=
  match f.compiled.evaluate x with
  | .ok value => if Scalar.isFinite value then .ok value else .error ⟨f.source, .notFinite x⟩
  | .error .overflow => .error ⟨f.source, .notFinite x⟩
  | .error .divisionByZero => .error ⟨f.source, .divisionByZero x⟩
  | .error (.domain operation argument) => .error ⟨f.source, .domain operation argument⟩

/-- The values at some points, or the error of the first point that has none.
Points behind that one are not looked at. -/
def evalAll (f : Callable K) (xs : List K) : Except (EvalError K) (List K) := xs.mapM f.eval

/-- The value at a point if there is one.  Why there is none is left out, as a
curve has a gap in any case. -/
def eval? (f : Callable K) (x : K) : Option K := (f.eval x).toOption

end Callable

end Fluxion
