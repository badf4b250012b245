import Fluxion.Expr.Text

/-!
# Formulas in mathematical markup

The markup of a formula for a typesetter's math mode.  Grouping follows the same binding strengths
as the plain text, except that fractions, roots and exponents delimit their own parts.
-/

namespace Fluxion

namespace Expr

/-- Markup between growing parentheses where a condition asks for them. -/
def latexGrouped (group : Bool) (markup : String) : String :=
  if group then "\\left(" ++ markup ++ "\\right)" else markup

/-- Markup between braces. -/
def braced (markup : String) : String := "\x7b" ++ markup ++ "\x7d"

/-- The markup of a constant. -/
def latexConstant : Constant → String
  | .pi => "\\pi"
  | .e => "e"

/-- The markup of a function applied to an argument.  The exponential is a
power and the root a sign over its argument; the others have their names, with
growing parentheses around the argument. -/
def latexCall (f : Elementary) (argument : String) : String :=
  match f with
  | .exp => "e^" ++ braced argument
  | .sqrt => "\\sqrt" ++ braced argument
  | .log => "\\ln" ++ latexGrouped true argument
  | f => "\\" ++ f.name ++ latexGrouped true argument

variable {K : Type} [Scalar K] [Numeral K]

/-- The markup of a number; infinities have a symbol. -/
def latexNumber (c : K) : String :=
  match Numeral.infinite? c with
  | some true => "-\\infty"
  | some false => "\\infty"
  | none => Numeral.text c

/-- The markup of a formula.  Quotients become fractions, and what stands
above or below the bar or in an exponent needs no parentheses, as the braces
of the markup keep it together. -/
def latex : Expr K → String
  | var name => name
  | const c => latexNumber c
  | named c => latexConstant c
  | add u v =>
    match _h : v.negated? with
    | some v' =>
      u.latex ++ " - " ++ latexGrouped (decide (v'.precedence ≤ 1) || v'.leadingMinus) v'.latex
    | none => u.latex ++ " + " ++ latexGrouped v.leadingMinus v.latex
  | sub u v =>
    u.latex ++ " - " ++ latexGrouped (decide (v.precedence ≤ 1) || v.leadingMinus) v.latex
  | mul u v =>
    let right := latexGrouped (decide (v.precedence ≤ 1) || v.leadingMinus) v.latex
    if u.isMinusOne then "-" ++ right
    else latexGrouped (decide (u.precedence ≤ 1)) u.latex ++ " \\cdot " ++ right
  | div u v => "\\frac" ++ braced u.latex ++ braced v.latex
  | pow u v =>
    latexGrouped (decide (u.precedence < 5) || u.leadingMinus) u.latex ++ "^" ++ braced v.latex
  | call f u => latexCall f u.latex
termination_by e => e.size
decreasing_by
  all_goals first
    | (simp only [size]; omega)
    | (have bound := size_negated?_le (by assumption); simp only [size]; omega)

end Expr

end Fluxion
