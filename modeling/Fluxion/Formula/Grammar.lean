import Fluxion.Formula.Lexer
import Fluxion.Expr.Basic
import Fluxion.Decimal.Numeral

/-!
# The grammar of normal form

```text
sum     := product (("+" | "-") product)*
product := unary (("*" | "/") unary)*
unary   := ("-" | "+") unary | power
power   := atom ("**" unary)?
atom    := number | "x" | constant | function "(" sum ")" | "(" sum ")"
```

Names are the variable, the two qualified constants and the nine qualified functions.  A sign binds
weaker than a power, and a minus sign in front of a number belongs to the number.

A reader takes the lexemes and answers with a tree and the lexemes that follow it, which are fewer:
that bounds the repetition of sums and products.  Groups, calls, signs and exponents all pass
through `unary`, whose nesting is limited; the recursion follows the levels that are left.
-/

namespace Fluxion.Formula

variable {K : Type} [Scalar K] [Numeral K]

/-- Lexemes that are fewer than the given ones. -/
abbrev Fewer (lexemes : List Lexeme) : Type :=
  { rest : List Lexeme // rest.length < lexemes.length }

/-- Reads a tree from the front of the lexemes.  What is left is fewer, so
readers can be repeated without a bound of their own. -/
abbrev Reader (K : Type) : Type :=
  (lexemes : List Lexeme) → Except GrammarFault (Expr K × Fewer lexemes)

/-- The fault of meeting what no rule allows here: the next token with its
place, or the end.  It is the fault of whatever asks for a closing parenthesis
or for the end. -/
def unexpected : List Lexeme → GrammarFault
  | [] => .unexpectedEnd
  | lexeme :: _rest => .unexpectedToken lexeme.token lexeme.position

/-- The remaining steps of a left-associative chain whose first operands made
`left`.  It ends before the first token that is no operator of its strength,
and an operator without an operand behind it is a fault. -/
def chainFrom (operation : Token → Option (Expr K → Expr K → Expr K)) (operand : Reader K)
    (left : Expr K) (lexemes : List Lexeme) :
    Except GrammarFault (Expr K × { rest : List Lexeme // rest.length ≤ lexemes.length }) :=
  match lexemes with
  | [] => .ok (left, ⟨[], Nat.le_refl _⟩)
  | lexeme :: after =>
    match operation lexeme.token with
    | none => .ok (left, ⟨lexeme :: after, Nat.le_refl _⟩)
    | some combine =>
      match operand after with
      | .error fault => .error fault
      | .ok (right, ⟨rest, fewer⟩) =>
        match chainFrom operation operand (combine left right) rest with
        | .error fault => .error fault
        | .ok (tree, ⟨final, notMore⟩) =>
          .ok (tree, ⟨final, by simp only [List.length_cons]; omega⟩)
termination_by lexemes.length
decreasing_by simp only [List.length_cons]; omega

/-- Operands joined by operators of one strength, grouped from the left.
There is at least one operand, and a fault in it is the fault of the chain. -/
def chain (operation : Token → Option (Expr K → Expr K → Expr K)) (operand : Reader K) :
    Reader K :=
  fun lexemes =>
    match operand lexemes with
    | .error fault => .error fault
    | .ok (first, ⟨rest, fewer⟩) =>
      match chainFrom operation operand first rest with
      | .error fault => .error fault
      | .ok (tree, ⟨final, notMore⟩) => .ok (tree, ⟨final, by omega⟩)

/-- The operations that join the operands of a product. -/
def productOperation : Token → Option (Expr K → Expr K → Expr K)
  | .star => some .mul
  | .slash => some .div
  | _ => none

/-- The operations that join the products of a sum. -/
def sumOperation : Token → Option (Expr K → Expr K → Expr K)
  | .plus => some .add
  | .minus => some .sub
  | _ => none

/-- A sum whose products are made of the given operands. -/
def sumOf (unary : Reader K) : Reader K := chain sumOperation (chain productOperation unary)

/-- A sum and the parenthesis that closes it. -/
def closedSum (unary : Reader K) : Reader K := fun lexemes =>
  match sumOf unary lexemes with
  | .error fault => .error fault
  | .ok (tree, ⟨rest, fewer⟩) =>
    match rest, fewer with
    | ⟨.closing, _⟩ :: after, fewer =>
      .ok (tree, ⟨after, by simp only [List.length_cons] at fewer; omega⟩)
    | rest, _ => .error (unexpected rest)

/-- A name that needs no argument: the variable or a qualified constant. -/
def leaf? (name : String) : Option (Expr K) :=
  if name = variableName then some (.var name)
  else (Constant.ofQualifiedName? name).map .named

/-- A number, a name, a call or a group.  A function that is not called is a
fault of its own, and so is a name that is no name of normal form. -/
def atom (unary : Reader K) : Reader K
  | [] => .error .unexpectedEnd
  | ⟨token, position⟩ :: rest =>
    match token with
    | .number text => .ok (.const (Numeral.ofDigits text.toList), ⟨rest, by simp⟩)
    | .opening =>
      match closedSum unary rest with
      | .error fault => .error fault
      | .ok (tree, ⟨after, fewer⟩) =>
        .ok (tree, ⟨after, by simp only [List.length_cons]; omega⟩)
    | .ident name =>
      match leaf? name with
      | some tree => .ok (tree, ⟨rest, by simp⟩)
      | none =>
        match Elementary.ofQualifiedName? name with
        | none => .error (.unknownName name position)
        | some f =>
          match rest with
          | ⟨.opening, _⟩ :: inner =>
            match closedSum unary inner with
            | .error fault => .error fault
            | .ok (tree, ⟨after, fewer⟩) =>
              .ok (.call f tree, ⟨after, by simp only [List.length_cons]; omega⟩)
          | _ => .error (.missingCall name position)
    | token => .error (.unexpectedToken token position)

/-- An atom with the power it may be raised to.  The exponent is signed, and powers
group from the right, as the exponent is read with any power of its own. -/
def power (unary : Reader K) : Reader K := fun lexemes =>
  match atom unary lexemes with
  | .error fault => .error fault
  | .ok (base, ⟨rest, fewer⟩) =>
    match rest, fewer with
    | ⟨.power, _⟩ :: after, fewer =>
      match unary after with
      | .error fault => .error fault
      | .ok (exponent, ⟨final, fewerStill⟩) =>
        .ok (.pow base exponent,
          ⟨final, by simp only [List.length_cons] at fewer; omega⟩)
    | rest, fewer => .ok (base, ⟨rest, fewer⟩)

/-- The tree of a minus sign before an operand.  A constant takes the sign
itself, so that a negative number is one leaf of a tree. -/
def negative : Expr K → Expr K
  | .const c => .const (-c)
  | u => -u

/-- An operand with its signs, where `unary` reads what stands one level
deeper.  A sign is followed by an operand that may have signs too, and a plus
sign leaves no trace. -/
def signed (unary : Reader K) : Reader K
  | ⟨.minus, _⟩ :: rest =>
    match unary rest with
    | .error fault => .error fault
    | .ok (operand, ⟨after, fewer⟩) =>
      .ok (negative operand, ⟨after, by simp only [List.length_cons]; omega⟩)
  | ⟨.plus, _⟩ :: rest =>
    match unary rest with
    | .error fault => .error fault
    | .ok (operand, ⟨after, fewer⟩) =>
      .ok (operand, ⟨after, by simp only [List.length_cons]; omega⟩)
  | lexemes => power unary lexemes

/-- An operand that may nest a given number of levels.  Everything that nests
passes through it, so the recursion follows the levels. -/
def unary : Nat → Reader K
  | 0 => fun lexemes => .error (.tooDeep ((lexemes.head?.map (·.position)).getD 0))
  | levels + 1 => signed (unary levels)

/-- Reads all lexemes as one formula.  What is left behind the formula is a
fault, and so are no lexemes at all. -/
def parseLexemes (lexemes : List Lexeme) : Except GrammarFault (Expr K) :=
  match sumOf (unary nestingLimit) lexemes with
  | .error fault => .error fault
  | .ok (tree, ⟨[], _⟩) => .ok tree
  | .ok (_, ⟨rest, _⟩) => .error (unexpected rest)

/-- Reads a formula in normal form. -/
def parse (text : String) : Except GrammarFault (Expr K) := do
  parseLexemes (← lexemes text)

end Fluxion.Formula
