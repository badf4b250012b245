import Fluxion.Expr.Basic
import Fluxion.Decimal.Numeral

/-!
# Formulas as text

Infix text with `^` for powers and only the parentheses that binding strength asks for, such as
`x^3/3`, `2*x + 1` and `-sin(x)`.  A term that carries a minus sign at its front is subtracted
rather than added (`x - 2`), and an operand that starts with a minus sign is grouped wherever the
sign would otherwise meet another operator.
-/

namespace Fluxion

namespace Expr

variable {K : Type} [Scalar K]

/-- Binding strength: sums 1, products 2, negations and negative numbers 3,
powers 4, and what needs no grouping 5. -/
def precedence : Expr K → Nat
  | add _ _ | sub _ _ => 1
  | mul u _ => if u.isMinusOne then 3 else 2
  | div _ _ => 2
  | const c => if Scalar.isNegative c then 3 else 5
  | pow _ _ => 4
  | _ => 5

/-- Whether the text starts with a minus sign, as far as the tree tells.
Operands with such a text are put between parentheses, where the sign would
meet another operator.  In sums, differences, products and quotients the left
operand decides. -/
def leadingMinus : Expr K → Bool
  | const c => Scalar.isNegative c
  | mul u _ | div u _ | add u _ | sub u _ => u.leadingMinus
  | _ => false

/-- For a term written with a minus sign in front, the term without it.  Sums
write it behind a minus sign of their own.  Of a quotient the sign of the
numerator counts. -/
def negated? : Expr K → Option (Expr K)
  | const c => if Scalar.isNegative c then some (const (-c)) else none
  | mul u v =>
    if u.isMinusOne then some v
    else
      match u with
      | const c => if Scalar.isNegative c then some (mul (const (-c)) v) else none
      | _ => none
  | div u v => u.negated?.map fun u' => div u' v
  | _ => none

/-- The term without its minus sign is no larger than the term with it. -/
theorem size_negated?_le {u v : Expr K} (h : u.negated? = some v) : v.size ≤ u.size := by
  induction u generalizing v with
  | var | named | call | add | sub | pow => simp [negated?] at h
  | const c =>
    simp only [negated?] at h
    split at h <;> simp at h
    subst h; simp [size]
  | mul u w _ _ =>
    simp only [negated?] at h
    split at h
    · simp at h; subst h; simp [size]; omega
    · split at h
      · split at h <;> simp at h
        subst h; simp [size]
      · simp at h
  | div u w ihu _ =>
    simp only [negated?, Option.map_eq_some_iff] at h
    obtain ⟨u', hu', rfl⟩ := h
    have := ihu hu'
    simp [size]; omega

/-- Text in parentheses where a condition asks for them. -/
def grouped (group : Bool) (text : String) : String :=
  if group then "(" ++ text ++ ")" else text

variable [Numeral K]

/-- The text of a formula, which reads back as an equivalent one.  Parentheses
stand only where an operand binds less strongly than its place asks for, or
where its text begins with a minus sign. -/
def text : Expr K → String
  | var name => name
  | const c => Numeral.text c
  | named c => c.name
  | add u v =>
    match _h : v.negated? with
    | some v' =>
      u.text ++ " - " ++ grouped (decide (v'.precedence ≤ 1) || v'.leadingMinus) v'.text
    | none => u.text ++ " + " ++ grouped v.leadingMinus v.text
  | sub u v =>
    u.text ++ " - " ++ grouped (decide (v.precedence ≤ 1) || v.leadingMinus) v.text
  | mul u v =>
    let right := grouped (decide (v.precedence ≤ 1) || v.leadingMinus) v.text
    if u.isMinusOne then "-" ++ right
    else grouped (decide (u.precedence ≤ 1)) u.text ++ "*" ++ right
  | div u v =>
    grouped (decide (u.precedence ≤ 1)) u.text ++ "/"
      ++ grouped (decide (v.precedence ≤ 2) || v.leadingMinus) v.text
  | pow u v =>
    grouped (decide (u.precedence < 5) || u.leadingMinus) u.text ++ "^"
      ++ grouped (decide (v.precedence < 4) || v.leadingMinus) v.text
  | call f u => f.name ++ "(" ++ u.text ++ ")"
termination_by e => e.size
decreasing_by
  all_goals first
    | (simp only [size]; omega)
    | (have bound := size_negated?_le (by assumption); simp only [size]; omega)

end Expr

end Fluxion
