import Fluxion.Formula.Lexer
import Fluxion.Proofs.Meaning

/-!
# Phrases

What formula text says.  A phrase is a run of lexemes that stands for one operand of a given rank,
and it denotes a function of the variable.  The ranks are those of the grammar: a sum is made of
products, a product of factors, a factor of a sign or a power, and an atom stands for itself.
Notations differ in how they write powers and names (`Style`).

A phrase denotes more than one tree could: `a + b - c` is the sum of `a + b` and `-c` and of `a` and
`b - c`.  Exact arithmetic does not tell these trees apart, and this is what lets a printer leave
the parentheses out (`Phrase.sum_append`, `Phrase.product_append`).
-/

namespace Fluxion

open Formula (Token Lexeme)

/-- How a notation writes powers and names.  Phrases of two notations differ
in nothing else. -/
structure Style where
  power : Token
  function : Elementary → String
  constant : Constant → String

/-- The notation in which formulas are printed and typed. -/
def Style.user : Style := ⟨.caret, Elementary.name, Constant.name⟩

/-- The place of a phrase in the grammar.  A phrase may stand wherever one of
a weaker rank may. -/
inductive Rank where
  | atom
  | factor
  | product
  | sum
  deriving DecidableEq

/-- The ranks in ascending order; a phrase stands where its own or a higher
rank is wanted. -/
def Rank.level : Rank → Nat
  | atom => 0
  | factor => 1
  | product => 2
  | sum => 3

theorem Rank.level_le_sum (rank : Rank) : rank.level ≤ Rank.sum.level := by
  cases rank <;> decide

section Phrases

variable {K : Type} [Scalar K] [Numeral K] (reading : ExactReading K) (style : Style)

/-- Lexemes that stand for an operand of some rank, with what they denote at
each value of the variable. -/
inductive Phrase : Rank → List Lexeme → (ℝ → Exact) → Prop
  | number {digits : List Char} (position : Nat) (decimal : IsDecimal digits) :
      Phrase .atom [⟨.number (String.ofList digits), position⟩]
        fun _ => .real (reading.real (Numeral.ofDigits digits))
  | variable (position : Nat) :
      Phrase .atom [⟨.ident variableName, position⟩] fun t => .real t
  | constant (position : Nat) (c : Constant) :
      Phrase .atom [⟨.ident (style.constant c), position⟩] fun _ => c.value
  | group {lexemes : List Lexeme} {m : ℝ → Exact} (opened closed : Nat)
      (inside : Phrase .sum lexemes m) :
      Phrase .atom (⟨.opening, opened⟩ :: (lexemes ++ [⟨.closing, closed⟩])) m
  | call {lexemes : List Lexeme} {m : ℝ → Exact} (position opened closed : Nat) (f : Elementary)
      (argument : Phrase .sum lexemes m) :
      Phrase .atom (⟨.ident (style.function f), position⟩ :: ⟨.opening, opened⟩
        :: (lexemes ++ [⟨.closing, closed⟩])) fun t => f.value (m t)
  | atom {lexemes : List Lexeme} {m : ℝ → Exact} (h : Phrase .atom lexemes m) :
      Phrase .factor lexemes m
  | power {base exponent : List Lexeme} {m n : ℝ → Exact} (position : Nat)
      (hbase : Phrase .atom base m) (hexponent : Phrase .factor exponent n) :
      Phrase .factor (base ++ ⟨style.power, position⟩ :: exponent)
        fun t => Scalar.pow (m t) (n t)
  | minus {lexemes : List Lexeme} {m : ℝ → Exact} (position : Nat)
      (h : Phrase .factor lexemes m) :
      Phrase .factor (⟨.minus, position⟩ :: lexemes) fun t => -m t
  | factor {lexemes : List Lexeme} {m : ℝ → Exact} (h : Phrase .factor lexemes m) :
      Phrase .product lexemes m
  | mul {left right : List Lexeme} {m n : ℝ → Exact} (position : Nat)
      (hleft : Phrase .product left m) (hright : Phrase .factor right n) :
      Phrase .product (left ++ ⟨.star, position⟩ :: right) fun t => m t * n t
  | div {left right : List Lexeme} {m n : ℝ → Exact} (position : Nat)
      (hleft : Phrase .product left m) (hright : Phrase .factor right n) :
      Phrase .product (left ++ ⟨.slash, position⟩ :: right) fun t => m t / n t
  | product {lexemes : List Lexeme} {m : ℝ → Exact} (h : Phrase .product lexemes m) :
      Phrase .sum lexemes m
  | add {left right : List Lexeme} {m n : ℝ → Exact} (position : Nat)
      (hleft : Phrase .sum left m) (hright : Phrase .product right n) :
      Phrase .sum (left ++ ⟨.plus, position⟩ :: right) fun t => m t + n t
  | sub {left right : List Lexeme} {m n : ℝ → Exact} (position : Nat)
      (hleft : Phrase .sum left m) (hright : Phrase .product right n) :
      Phrase .sum (left ++ ⟨.minus, position⟩ :: right) fun t => m t - n t

end Phrases

namespace Phrase

variable {K : Type} [Scalar K] [Numeral K] {reading : ExactReading K} {style : Style}
variable {rank : Rank} {left right lexemes : List Lexeme} {m n : ℝ → Exact}

/-- A phrase that says one thing says everything equal to it. -/
theorem congr
    (h : Phrase reading style rank lexemes m) (same : ∀ t, m t = n t) :
    Phrase reading style rank lexemes n := by
  rwa [← funext same]

theorem raise {target : Rank}
    (h : Phrase reading style rank lexemes m) (le : rank.level ≤ target.level) :
    Phrase reading style target lexemes m := by
  cases rank <;> cases target <;>
    first
    | exact h
    | exact .atom h
    | exact .factor h
    | exact .factor (.atom h)
    | exact .product h
    | exact .product (.factor h)
    | exact .product (.factor (.atom h))
    | exact absurd le (by decide)

/-! ### Parentheses that are not needed -/

/-- A sign in front of a product belongs to its first factor. -/
theorem minus_product (position : Nat)
    (h : Phrase reading style .product lexemes m) :
    Phrase reading style .product (⟨.minus, position⟩ :: lexemes) fun t => -m t := by
  -- the first factor is reached down the left operands
  generalize product : Rank.product = rank at h
  induction h with
  | factor h => exact .factor (.minus position h)
  | mul middle hleft hright ih =>
      have signed := Phrase.mul middle (ih rfl) hright
      exact signed.congr fun t => Exact.neg_mul _ _
  | div middle hleft hright ih =>
      have signed := Phrase.div middle (ih rfl) hright
      exact signed.congr fun t => Exact.neg_div _ _
  | _ => cases product

/-- A product behind a multiplication sign is multiplied factor by factor. -/
theorem product_append (position : Nat)
    (hleft : Phrase reading style .product left m)
    (hright : Phrase reading style .product right n) :
    Phrase reading style .product (left ++ ⟨.star, position⟩ :: right) fun t => m t * n t := by
  -- the right product is taken apart from its last factor on; the left one grows
  generalize product : Rank.product = rank at hright
  induction hright with
  | factor h => exact .mul position hleft h
  | mul middle inner hright ih =>
      have chained := Phrase.mul middle (ih rfl) hright
      rw [List.append_assoc, List.cons_append] at chained
      exact chained.congr fun t => Exact.mul_assoc _ _ _
  | div middle inner hright ih =>
      have chained := Phrase.div middle (ih rfl) hright
      rw [List.append_assoc, List.cons_append] at chained
      exact chained.congr fun t => Exact.mul_div_assoc _ _ _
  | _ => cases product

/-- A sum behind a plus sign is added term by term. -/
theorem sum_append (position : Nat)
    (hleft : Phrase reading style .sum left m)
    (hright : Phrase reading style .sum right n) :
    Phrase reading style .sum (left ++ ⟨.plus, position⟩ :: right) fun t => m t + n t := by
  generalize sum : Rank.sum = rank at hright
  induction hright with
  | product h => exact .add position hleft h
  | add middle inner hright ih =>
      have chained := Phrase.add middle (ih rfl) hright
      rw [List.append_assoc, List.cons_append] at chained
      exact chained.congr fun t => Exact.add_assoc _ _ _
  | sub middle inner hright ih =>
      have chained := Phrase.sub middle (ih rfl) hright
      rw [List.append_assoc, List.cons_append] at chained
      exact chained.congr fun t => Exact.add_sub_assoc _ _ _
  | _ => cases sum

/-! ### Change of notation -/

/-- A map of lexemes that takes one notation to another and leaves alone
what both have. -/
structure Translation (f : Lexeme → Lexeme) (source target : Style) : Prop where
  number (text : String) (position : Nat) : f ⟨.number text, position⟩ = ⟨.number text, position⟩
  «variable» (position : Nat) : f ⟨.ident variableName, position⟩ = ⟨.ident variableName, position⟩
  symbol (token : Token) (position : Nat) :
    token ∈ [.plus, .minus, .star, .slash, .opening, .closing] →
      f ⟨token, position⟩ = ⟨token, position⟩
  power (position : Nat) : f ⟨source.power, position⟩ = ⟨target.power, position⟩
  function (g : Elementary) (position : Nat) :
    f ⟨.ident (source.function g), position⟩ = ⟨.ident (target.function g), position⟩
  constant (c : Constant) (position : Nat) :
    f ⟨.ident (source.constant c), position⟩ = ⟨.ident (target.constant c), position⟩

/-- Rewriting that respects a style takes phrases to phrases of the other
style.  One case for each rule. -/
theorem translate {f : Lexeme → Lexeme} {target : Style}
    (t : Translation f style target) (h : Phrase reading style rank lexemes m) :
    Phrase reading target rank (lexemes.map f) m := by
  induction h with
  | number position decimal => simpa only [List.map, t.number] using .number position decimal
  | «variable» position => simpa only [List.map, t.variable] using .variable position
  | constant position c => simpa only [List.map, t.constant] using .constant position c
  | group opened closed _ ih =>
      rw [List.map_cons, List.map_append, List.map_singleton, t.symbol _ _ (by simp),
        t.symbol _ _ (by simp)]
      exact .group opened closed ih
  | call position opened closed g _ ih =>
      rw [List.map_cons, List.map_cons, List.map_append, List.map_singleton, t.function,
        t.symbol _ _ (by simp), t.symbol _ _ (by simp)]
      exact .call position opened closed g ih
  | atom _ ih => exact .atom ih
  | power position _ _ ihbase ihexponent =>
      rw [List.map_append, List.map_cons, t.power]
      exact .power position ihbase ihexponent
  | minus position _ ih =>
      rw [List.map_cons, t.symbol _ _ (by simp)]
      exact .minus position ih
  | factor _ ih => exact .factor ih
  | mul position _ _ ihleft ihright =>
      rw [List.map_append, List.map_cons, t.symbol _ _ (by simp)]
      exact .mul position ihleft ihright
  | div position _ _ ihleft ihright =>
      rw [List.map_append, List.map_cons, t.symbol _ _ (by simp)]
      exact .div position ihleft ihright
  | product _ ih => exact .product ih
  | add position _ _ ihleft ihright =>
      rw [List.map_append, List.map_cons, t.symbol _ _ (by simp)]
      exact .add position ihleft ihright
  | sub position _ _ ihleft ihright =>
      rw [List.map_append, List.map_cons, t.symbol _ _ (by simp)]
      exact .sub position ihleft ihright

end Phrase

end Fluxion
