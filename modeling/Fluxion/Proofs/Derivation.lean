import Fluxion.Formula.Normal
import Mathlib.Data.List.Forall2

/-!
# Derivations

What the grammar of formulas derives, as data.  A derivation follows the rules

```text
sum     := product (("+" | "-") product)*
product := unary (("*" | "/") unary)*
unary   := ("-" | "+") unary | power
power   := atom ("**" unary)?
atom    := number | "x" | constant | function "(" sum ")" | "(" sum ")"
```

and knows the lexemes that it derives, its tree and how deep its operands nest.  A repetition is
kept as it is read, from the left: a sum is a product, or a shorter sum, an operator and a product.

Notations differ in their names only (`Vocabulary`).  In normal form every name but the variable is
qualified.  User notation knows bare names and other spellings besides, functions that stand for a
reciprocal, and a constant whose powers are written for the exponential.

Of two derivations that start at the same place one goes on where the other ends
(`Derivation.comparable`), so what a list of lexemes says is unique
(`Derivation.eq_of_lexemes_eq`).
-/

namespace Fluxion

open Formula (Token Lexeme SurfaceFunction)

/-! ### Names -/

/-- The names that a notation knows, and what they stand for.  No name stands
for two things. -/
structure Vocabulary where
  function? : String → Option SurfaceFunction
  constant? : String → Option Constant
  /-- Whether powers of a constant of this name are written for the exponential. -/
  isExponential : String → Bool
  variable_apart : function? variableName = none ∧ constant? variableName = none
  function_apart (name : String) : (function? name).isSome = true → constant? name = none

theorem eq_of_find?_spelling {A : Type} {all : List A} {spelling : A → String} {name : String}
    {a : A} (found : all.find? (fun a => spelling a == name) = some a) : name = spelling a := by
  have same := List.find?_some found
  exact (beq_iff_eq.1 same).symm

namespace Vocabulary

/-- The names of normal form: qualified, and every function for itself.  No
name is that of the exponential base. -/
def normal : Vocabulary where
  function? name := (Elementary.ofQualifiedName? name).map .direct
  constant? := Constant.ofQualifiedName?
  isExponential _ := false
  variable_apart := by decide
  function_apart name known := by
    rw [Option.isSome_map] at known
    obtain ⟨f, found⟩ := Option.isSome_iff_exists.1 known
    rw [eq_of_find?_spelling found]
    cases f <;> decide

/-- The tokens that derivations are made of: every symbol, every number, and
the names of the vocabulary. -/
def Spells (v : Vocabulary) : Token → Prop
  | .caret => False
  | .ident name =>
      name = variableName ∨ (v.constant? name).isSome = true ∨ (v.function? name).isSome = true
  | _ => True

section Names

variable {v : Vocabulary} {name name' : String} {c : Constant} {f : SurfaceFunction}

theorem ne_variableName_of_constant (known : v.constant? name = some c) : name ≠ variableName := by
  rintro rfl
  cases v.variable_apart.2.symm.trans known

theorem ne_variableName_of_function (known : v.function? name = some f) : name ≠ variableName := by
  rintro rfl
  cases v.variable_apart.1.symm.trans known

/-- A name that stands for a constant stands for no function. -/
theorem function?_eq_none (known : v.constant? name = some c) : v.function? name = none := by
  rw [← Option.not_isSome_iff_eq_none]
  intro function
  cases (v.function_apart name function).symm.trans known

theorem constant_ne_function (known : v.constant? name = some c)
    (known' : v.function? name' = some f) : name ≠ name' := by
  rintro rfl
  cases (function?_eq_none known).symm.trans known'

theorem spells_constant (known : v.constant? name = some c) : v.Spells (.ident name) :=
  .inr (.inl (Option.isSome_of_eq_some known))

theorem spells_function (known : v.function? name = some f) : v.Spells (.ident name) :=
  .inr (.inr (Option.isSome_of_eq_some known))

end Names

end Vocabulary

/-! ### Rules -/

/-- The two strengths of operators that join operands from the left.  Sums and
products share everything else. -/
inductive Strength where
  | sum
  | product
  deriving DecidableEq

/-- The operators of a strength.  The index keeps sums and products apart, so
a derivation cannot mix them up. -/
inductive Operator : Strength → Type where
  | plus : Operator .sum
  | minus : Operator .sum
  | star : Operator .product
  | slash : Operator .product

namespace Operator

variable {s : Strength} {K : Type}

/-- The token that an operator is written as. -/
def token : Operator s → Token
  | plus => .plus
  | minus => .minus
  | star => .star
  | slash => .slash

/-- The tree of two joined operands, which is what reading the operator
makes of them. -/
def join : Operator s → Expr K → Expr K → Expr K
  | plus => .add
  | minus => .sub
  | star => .mul
  | slash => .div

/-- Operators of one strength are told apart by their tokens. -/
theorem eq_of_token_eq {first second : Operator s} (h : first.token = second.token) :
    first = second := by
  cases first <;> cases second <;> first | rfl | cases h

/-- No operator is a parenthesis, so operators leave the balance alone. -/
theorem token_ne_parenthesis (operator : Operator s) :
    operator.token ≠ .opening ∧ operator.token ≠ .closing := by
  cases operator <;> decide

end Operator

/-- The rules of the grammar, one for each way in which an operand can
be asked for. -/
inductive Rule where
  /-- operands joined by operators of one strength: a sum or a product -/
  | joined (s : Strength)
  | unary
  | power
  | atom
  deriving DecidableEq

namespace Rule

/-- The rule of sums, whose operands are products. -/
@[match_pattern] abbrev sum : Rule := .joined .sum

/-- The rule of products, whose operands carry their signs. -/
@[match_pattern] abbrev product : Rule := .joined .product

/-- The tokens that go on with what a rule has derived.  A derivation is
unique up to where one of them follows. -/
def extenders : Rule → List Token
  | joined .sum => [.power, .star, .slash, .plus, .minus]
  | joined .product => [.power, .star, .slash]
  | unary | power => [.power]
  | atom => []

end Rule

/-- The rule of the operands that operators of a strength join. -/
def Strength.operand : Strength → Rule
  | sum => .product
  | product => .unary

/-- No operand of an operator is a bare atom by rule: it may carry a sign or
be raised to a power. -/
theorem Strength.operand_ne_atom (s : Strength) : s.operand ≠ .atom := by
  cases s <;> simp [operand]

/-- The rule of the last operand, which a derivation of the rule ends with. -/
def Rule.last : Rule → Rule
  | joined s => s.operand
  | r => r

/-! ### Derivations -/

/-- Derivations of a rule, with the positions of their lexemes.  They are
trees of the grammar and not of formulas: signs, groups and the names as
written are still there. -/
inductive Derivation (v : Vocabulary) : Rule → Type where
  | number (text : String) (position : Nat) : Derivation v .atom
  | variable (position : Nat) : Derivation v .atom
  | constant {c : Constant} (name : String) (position : Nat) (known : v.constant? name = some c) :
      Derivation v .atom
  | call {f : SurfaceFunction} (name : String) (position opened closed : Nat)
      (known : v.function? name = some f) (argument : Derivation v (.joined .sum)) :
      Derivation v .atom
  | group (opened closed : Nat) (inside : Derivation v (.joined .sum)) : Derivation v .atom
  | unraised (operand : Derivation v .atom) : Derivation v .power
  | raised (base : Derivation v .atom) (position : Nat) (exponent : Derivation v .unary) :
      Derivation v .power
  | unsigned (operand : Derivation v .power) : Derivation v .unary
  | signed (sign : Operator .sum) (position : Nat) (operand : Derivation v .unary) :
      Derivation v .unary
  | single {s : Strength} (operand : Derivation v s.operand) : Derivation v (.joined s)
  | extended {s : Strength} (left : Derivation v (.joined s)) (operator : Operator s)
      (position : Nat) (right : Derivation v s.operand) : Derivation v (.joined s)

/-- The tree of a function's value.  A reciprocal is one over the value. -/
def Formula.SurfaceFunction.apply {K : Type} [Numeral K] : SurfaceFunction → Expr K → Expr K
  | direct f, u => .call f u
  | reciprocal f, u => .div (.const (Numeral.ofDigits "1".toList)) (.call f u)

namespace Derivation

variable {v : Vocabulary} {r : Rule} {s : Strength}

/-- The lexemes that are derived, from left to right. -/
def lexemes {r : Rule} : Derivation v r → List Lexeme
  | number text position => [⟨.number text, position⟩]
  | «variable» position => [⟨.ident variableName, position⟩]
  | constant name position _ => [⟨.ident name, position⟩]
  | call name position opened closed _ argument =>
      ⟨.ident name, position⟩ :: ⟨.opening, opened⟩
        :: (argument.lexemes ++ [⟨.closing, closed⟩])
  | group opened closed inside => ⟨.opening, opened⟩ :: (inside.lexemes ++ [⟨.closing, closed⟩])
  | unraised operand => operand.lexemes
  | raised base position exponent => base.lexemes ++ ⟨.power, position⟩ :: exponent.lexemes
  | unsigned operand => operand.lexemes
  | signed sign position operand => ⟨sign.token, position⟩ :: operand.lexemes
  | single operand => operand.lexemes
  | extended left operator position right =>
      left.lexemes ++ ⟨operator.token, position⟩ :: right.lexemes

/-- The largest number of operands with signs that stand one in another.  This
is the depth that a reader needs. -/
def nesting {r : Rule} : Derivation v r → Nat
  | number _ _ | «variable» _ | constant _ _ _ => 0
  | call _ _ _ _ _ argument => argument.nesting
  | group _ _ inside => inside.nesting
  | unraised operand => operand.nesting
  | raised base _ exponent => max base.nesting exponent.nesting
  | unsigned operand => operand.nesting + 1
  | signed _ _ operand => operand.nesting + 1
  | single operand => operand.nesting
  | extended left _ _ right => max left.nesting right.nesting

/-- Whether a power of this base is written for the exponential.  Only the
bare name of the constant is, and not between parentheses. -/
def isExponentialBase {r : Rule} : Derivation v r → Bool
  | constant name _ _ => v.isExponential name
  | _ => false

section Tree

variable {K : Type} [Scalar K] [Numeral K]

/-- The tree of a sign and its operand.  A minus sign in front of a constant
belongs to it. -/
def signTree : Operator .sum → Expr K → Expr K
  | .plus, u => u
  | .minus, .const c => .const (-c)
  | .minus, u => -u

/-- The tree that is derived.  Groups leave no trace in it, and reciprocals
become quotients. -/
def tree {r : Rule} : Derivation v r → Expr K
  | number text _ => .const (Numeral.ofDigits text.toList)
  | «variable» _ => .var variableName
  | @constant _ c _ _ _ => .named c
  | @call _ f _ _ _ _ _ argument => f.apply argument.tree
  | group _ _ inside => inside.tree
  | unraised operand => operand.tree
  | raised base _ exponent =>
      if base.isExponentialBase then .call .exp exponent.tree else .pow base.tree exponent.tree
  | unsigned operand => operand.tree
  | signed sign _ operand => signTree sign operand.tree
  | single operand => operand.tree
  | extended left operator _ right => operator.join left.tree right.tree

end Tree

theorem lexemes_ne_nil (d : Derivation v r) : d.lexemes ≠ [] := by
  induction d with
  | unraised _ ih | unsigned _ ih | single _ ih => exact ih
  | _ => simp [lexemes]

/-- A derivation consists of nothing but the tokens of its vocabulary.
Foreign names never get into one. -/
theorem spells_of_mem (d : Derivation v r) : ∀ lexeme ∈ d.lexemes, v.Spells lexeme.token := by
  induction d with
  | number => simp [lexemes, Vocabulary.Spells]
  | «variable» => simp [lexemes, Vocabulary.Spells]
  | constant name position known => simp [lexemes, Vocabulary.Spells, known]
  | call name position opened closed known argument ih =>
      simpa [lexemes, Vocabulary.Spells, known, or_imp, forall_and] using ih
  | group opened closed inside ih =>
      simpa [lexemes, Vocabulary.Spells, or_imp, forall_and] using ih
  | unraised _ ih | unsigned _ ih | single _ ih => exact ih
  | raised base position exponent ihbase ihexponent =>
      simpa [lexemes, Vocabulary.Spells, or_imp, forall_and] using ⟨ihbase, ihexponent⟩
  | signed sign position operand ih =>
      cases sign <;> simpa [lexemes, Vocabulary.Spells, Operator.token] using ih
  | extended left operator position right ihleft ihright =>
      cases operator <;>
        simpa [lexemes, Vocabulary.Spells, Operator.token, or_imp, forall_and] using
          ⟨ihleft, ihright⟩

end Derivation

/-! ### What lexemes say is unique -/

/-- No derivation of the rule can go on into the lexemes behind it.  It is
enough to look at the first of them. -/
def Rule.EndsBefore (r : Rule) (rest : List Lexeme) : Prop :=
  ∀ lexeme ∈ rest.head?, lexeme.token ∉ r.extenders

namespace Rule

variable {s : Strength} {r : Rule} {rest : List Lexeme}

theorem endsBefore_nil : r.EndsBefore [] := by simp [EndsBefore]

theorem endsBefore_cons {token : Token} {position : Nat} (h : token ∉ r.extenders) :
    r.EndsBefore (⟨token, position⟩ :: rest) := by
  rintro _ ⟨⟩
  exact h

theorem endsBefore_atom : atom.EndsBefore rest := by simp [EndsBefore, extenders]

theorem endsBefore_closing (position : Nat) : r.EndsBefore (⟨.closing, position⟩ :: rest) := by
  apply endsBefore_cons
  rcases r with ⟨_ | _⟩ | _ | _ | _ <;> decide

/-- An operator ends the operand before it. -/
theorem endsBefore_operator (operator : Operator s) (position : Nat) :
    s.operand.EndsBefore (⟨operator.token, position⟩ :: rest) := by
  apply endsBefore_cons
  cases operator <;> decide

/-- Where a sum or product ends, its last operand ends as well. -/
theorem EndsBefore.operand (h : (joined s).EndsBefore rest) : s.operand.EndsBefore rest := by
  intro lexeme hlexeme extender
  apply h lexeme hlexeme
  cases s <;> simp [extenders, Strength.operand] at extender ⊢ <;> tauto

/-- Where a derivation ends, its last operand ends as well. -/
theorem EndsBefore.last (h : r.EndsBefore rest) : r.last.EndsBefore rest := by
  cases r with
  | joined s => exact h.operand
  | _ => exact h

theorem EndsBefore.not_operator {operator : Operator s} {position : Nat}
    (h : (joined s).EndsBefore (⟨operator.token, position⟩ :: rest)) : False := by
  have extender : operator.token ∈ (joined s).extenders := by
    cases operator <;> decide
  exact h _ rfl extender

end Rule

namespace Derivation

variable {v : Vocabulary} {r : Rule} {s : Strength} {rest rest' : List Lexeme}

/-- A derivation that goes on where another one ends: with more operands of
its own strength. -/
inductive Extends : {r : Rule} → Derivation v r → Derivation v r → Prop
  | refl {r : Rule} (d : Derivation v r) : Extends d d
  | step {s : Strength} {d d' : Derivation v (.joined s)} (operator : Operator s) (position : Nat)
      (right : Derivation v s.operand) (h : Extends (.extended d operator position right) d') :
      Extends d d'

namespace Extends

variable {d d' d'' : Derivation v r}

theorem trans (h : Extends d d') (h' : Extends d' d'') : Extends d d'' := by
  induction h with
  | refl => exact h'
  | step operator position right _ ih => exact .step operator position right (ih h')

/-- A longer derivation adds lexemes behind the shorter one.  The last operand
ends before these wherever it ends before what follows them. -/
theorem exists_more (h : Extends d d') :
    ∃ more, d'.lexemes = d.lexemes ++ more ∧
      ∀ rest, r.last.EndsBefore rest → r.last.EndsBefore (more ++ rest) := by
  induction h with
  | refl d => exact ⟨[], (List.append_nil _).symm, fun rest ends => ends⟩
  | step operator position right h ih =>
      obtain ⟨more, eq, -⟩ := ih
      refine ⟨⟨operator.token, position⟩ :: (right.lexemes ++ more), ?_, fun rest _ => ?_⟩
      · rw [eq, lexemes, List.append_assoc, List.cons_append]
      · exact Rule.endsBefore_operator operator position

/-- Where a derivation has to end, no longer one can start with it. -/
theorem eq (h : Extends d d') (same : d.lexemes ++ rest = d'.lexemes ++ rest')
    (ends : r.EndsBefore rest) : d = d' := by
  cases h with
  | refl => rfl
  | step operator position right h =>
      obtain ⟨more, eq, -⟩ := h.exists_more
      rw [eq, lexemes, List.append_assoc, List.append_assoc, List.append_cancel_left_eq] at same
      rw [same] at ends
      exact ends.not_operator.elim

end Extends

/-- Whatever else a derivation of the rule can read at the same place goes on
where this one ends, or the other way round. -/
def Comparable (d : Derivation v r) : Prop :=
  ∀ (d' : Derivation v r) (rest rest' : List Lexeme), d.lexemes ++ rest = d'.lexemes ++ rest' →
    r.last.EndsBefore rest → r.last.EndsBefore rest' → Extends d d' ∨ Extends d' d

namespace Comparable

theorem eq {d : Derivation v r} (h : Comparable d) (d' : Derivation v r)
    (same : d.lexemes ++ rest = d'.lexemes ++ rest') (ends : r.EndsBefore rest)
    (ends' : r.EndsBefore rest') : d = d' ∧ rest = rest' := by
  have alike : d = d' := by
    rcases h d' rest rest' same ends.last ends'.last with h | h
    · exact h.eq same ends
    · exact (h.eq same.symm ends').symm
  subst alike
  exact ⟨rfl, List.append_cancel_left same⟩

/-- An operand that stands alone goes on as any derivation that starts with
it, which is the base of the induction over chains. -/
theorem single_extends {operand : Derivation v s.operand} (h : Comparable operand) :
    (d' : Derivation v (.joined s)) → (rest rest' : List Lexeme) →
      operand.lexemes ++ rest = d'.lexemes ++ rest' → s.operand.EndsBefore rest →
        s.operand.EndsBefore rest' → Extends (.single operand) d'
  | .single operand', rest, rest', same, ends, ends' => by
      rw [(h.eq operand' same ends ends').1]
      exact .refl _
  | .extended left operator position right, rest, rest', same, ends, _ => by
      rw [lexemes, List.append_assoc, List.cons_append] at same
      have shorter := single_extends h left rest _ same ends
        (Rule.endsBefore_operator operator position)
      exact shorter.trans (.step operator position right (.refl _))

/-- Comparability passes from the operands to the joined derivation.  The
induction over chains rests on this step. -/
theorem extended {left : Derivation v (.joined s)} {right : Derivation v s.operand}
    (hleft : Comparable left) (hright : Comparable right) (operator : Operator s)
    (position : Nat) : Comparable (.extended left operator position right) := by
  intro d' rest rest' same ends ends'
  rw [lexemes, List.append_assoc, List.cons_append] at same
  rcases hleft d' _ rest' same (Rule.endsBefore_operator operator position) ends' with h | h
  · cases h with
    | refl => exact .inr (.step operator position right (.refl _))
    | step operator' position' right' h =>
        obtain ⟨more, eq, ends''⟩ := h.exists_more
        rw [eq, lexemes, List.append_assoc, List.append_assoc, List.append_cancel_left_eq,
          List.cons_append, List.cons.injEq, Lexeme.mk.injEq] at same
        obtain ⟨⟨token, rfl⟩, same⟩ := same
        obtain rfl := Operator.eq_of_token_eq token
        rw [(hright.eq right' same ends (ends'' rest' ends')).1]
        exact .inl h
  · exact .inr (h.trans (.step operator position right (.refl _)))

end Comparable

theorem lexemes_ne_signed (d : Derivation v .power) (sign : Operator .sum) (position : Nat) :
    d.lexemes ++ rest ≠ ⟨sign.token, position⟩ :: rest' := by
  cases d with
  | unraised a | raised a => cases a <;> cases sign <;> simp [lexemes, Operator.token]

/-- All derivations are comparable, by induction on the derivation with one
case for each rule. -/
theorem comparable (d : Derivation v r) : Comparable d := by
  induction d with
  | number text position =>
      intro d' rest rest' same _ _
      cases d' <;> simp [lexemes] at same
      obtain ⟨⟨rfl, rfl⟩, -⟩ := same
      exact .inl (.refl _)
  | «variable» position =>
      intro d' rest rest' same _ _
      cases d' <;> simp [lexemes] at same
      case «variable» =>
        rw [same.1]
        exact .inl (.refl _)
      case constant known =>
        exact absurd same.1.1.symm (Vocabulary.ne_variableName_of_constant known)
      case call known _ =>
        exact absurd same.1.1.symm (Vocabulary.ne_variableName_of_function known)
  | constant name position known =>
      intro d' rest rest' same _ _
      cases d' <;> simp [lexemes] at same
      case «variable» => exact absurd same.1.1 (Vocabulary.ne_variableName_of_constant known)
      case constant known' =>
        obtain ⟨⟨rfl, rfl⟩, -⟩ := same
        obtain rfl := Option.some.inj (known.symm.trans known')
        exact .inl (.refl _)
      case call known' _ => exact absurd same.1.1 (Vocabulary.constant_ne_function known known')
  | call name position opened closed known argument ih =>
      intro d' rest rest' same _ _
      cases d' <;> simp [lexemes] at same
      case «variable» => exact absurd same.1.1 (Vocabulary.ne_variableName_of_function known)
      case constant known' =>
        exact absurd same.1.1.symm (Vocabulary.constant_ne_function known' known)
      case call known' argument' =>
        obtain ⟨⟨rfl, rfl⟩, rfl, same⟩ := same
        obtain rfl := Option.some.inj (known.symm.trans known')
        obtain ⟨rfl, behind⟩ := ih.eq _ same (Rule.endsBefore_closing _) (Rule.endsBefore_closing _)
        cases behind
        exact .inl (.refl _)
  | group opened closed inside ih =>
      intro d' rest rest' same _ _
      cases d' <;> simp [lexemes] at same
      case group inside' =>
        obtain ⟨rfl, same⟩ := same
        obtain ⟨rfl, behind⟩ := ih.eq _ same (Rule.endsBefore_closing _) (Rule.endsBefore_closing _)
        cases behind
        exact .inl (.refl _)
  | unraised operand ih =>
      intro d' rest rest' same ends _
      cases d' with
      | unraised operand' =>
          rw [(ih.eq operand' same Rule.endsBefore_atom Rule.endsBefore_atom).1]
          exact .inl (.refl _)
      | raised base' position' exponent' =>
          rw [lexemes, lexemes, List.append_assoc] at same
          obtain ⟨rfl, rfl⟩ := ih.eq _ same Rule.endsBefore_atom Rule.endsBefore_atom
          exact absurd (List.mem_singleton_self _) (ends _ rfl)
  | raised base position exponent ihbase ihexponent =>
      intro d' rest rest' same ends ends'
      cases d' with
      | unraised operand' =>
          rw [lexemes, lexemes, List.append_assoc] at same
          obtain ⟨rfl, rfl⟩ := ihbase.eq _ same Rule.endsBefore_atom Rule.endsBefore_atom
          exact absurd (List.mem_singleton_self _) (ends' _ rfl)
      | raised base' position' exponent' =>
          rw [lexemes, lexemes, List.append_assoc, List.append_assoc] at same
          obtain ⟨rfl, behind⟩ := ihbase.eq _ same Rule.endsBefore_atom Rule.endsBefore_atom
          rw [List.cons_append, List.cons_append, List.cons.injEq, Lexeme.mk.injEq] at behind
          obtain ⟨⟨-, rfl⟩, behind⟩ := behind
          rw [(ihexponent.eq _ behind ends ends').1]
          exact .inl (.refl _)
  | unsigned operand ih =>
      intro d' rest rest' same ends ends'
      cases d' with
      | unsigned operand' =>
          rw [(ih.eq operand' same ends ends').1]
          exact .inl (.refl _)
      | signed sign position operand' => exact absurd same (operand.lexemes_ne_signed sign position)
  | signed sign position operand ih =>
      intro d' rest rest' same ends ends'
      cases d' with
      | unsigned operand' => exact absurd same.symm (operand'.lexemes_ne_signed sign position)
      | signed sign' position' operand' =>
          rw [lexemes, lexemes, List.cons_append, List.cons_append, List.cons.injEq,
            Lexeme.mk.injEq] at same
          obtain ⟨⟨token, rfl⟩, same⟩ := same
          obtain rfl := Operator.eq_of_token_eq token
          rw [(ih.eq _ same ends ends').1]
          exact .inl (.refl _)
  | single operand ih =>
      intro d' rest rest' same ends ends'
      exact .inl (ih.single_extends d' rest rest' same ends ends')
  | extended left operator position right ihleft ihright =>
      exact ihleft.extended ihright operator position

/-- Two derivations that start at the same place, and that cannot go on where
they end, are the same. -/
theorem eq_of_append_eq {d d' : Derivation v r} (same : d.lexemes ++ rest = d'.lexemes ++ rest')
    (ends : r.EndsBefore rest) (ends' : r.EndsBefore rest') : d = d' ∧ rest = rest' :=
  d.comparable.eq d' same ends ends'

/-- Lexemes have at most one derivation.  The grammar is unambiguous, so what
a reader finds is what there is to find. -/
theorem eq_of_lexemes_eq {d d' : Derivation v r} (same : d.lexemes = d'.lexemes) : d = d' := by
  have same : d.lexemes ++ [] = d'.lexemes ++ [] := by rw [same]
  exact (eq_of_append_eq same Rule.endsBefore_nil Rule.endsBefore_nil).1

end Derivation

end Fluxion
