import Fluxion.Proofs.Printing
import Fluxion.Proofs.SignedDigit
import Fluxion.Proofs.SurfaceReading

/-!
# Printing and reading back

A printed formula is read back as a formula.  Its text passes the checks of user notation and is cut
into the lexemes of a phrase, and a phrase has a derivation in user notation whose tree denotes what
the phrase denotes (`Phrase.exists_derivation`).  What comes back denotes what the text says, and
that is what the tree denotes wherever no power of a negative zero has the exponent zero.
-/

namespace Fluxion

open Formula (Token Lexeme)

/-- The notation in which powers are written with stars. -/
def Style.starred : Style := ⟨.power, Elementary.name, Constant.name⟩

/-- The rule of the grammar for phrases of a rank. -/
abbrev Rank.rule : Rank → Rule
  | atom => .atom
  | factor => .unary
  | product => .product
  | sum => .sum

variable {K : Type} [Scalar K] [Numeral K] {reading : ExactReading K}
variable {rank : Rank} {lexemes : List Lexeme} {m : ℝ → Exact}

theorem Phrase.withPowers (h : Phrase reading Style.user rank lexemes m) :
    Phrase reading Style.starred rank (Formula.withPowers lexemes) m := by
  refine translate ?_ h
  constructor
  case symbol =>
    intro token position known
    fin_cases known <;> rfl
  all_goals intros; rfl

theorem Derivation.tree_of_isExponentialBase {d : Derivation .surface .atom}
    (e : d.isExponentialBase = true) : d.tree (K := K) = .named .e := by
  cases d with
  | constant name position known =>
      rw [beq_iff_eq.1 e] at known
      cases known
      rfl
  | _ => cases e

/-- A minus sign means the opposite, in front of a constant as well. -/
theorem meaning_signTree_minus (u : Expr K) (t : ℝ) :
    (Derivation.signTree .minus u).meaning reading t = -u.meaning reading t := by
  cases u with
  | const c =>
      show Exact.real (reading.real (-c)) = -Exact.real (reading.real c)
      rw [reading.real_neg, Exact.neg_real]
  | _ => exact Expr.meaning_neg reading _ t

/-- A phrase is derived in user notation, with a tree that denotes the same. -/
theorem Phrase.exists_derivation (h : Phrase reading Style.starred rank lexemes m) :
    ∃ d : Derivation .surface rank.rule,
      d.lexemes = lexemes ∧ ∀ t, d.tree.meaning reading t = m t := by
  induction h with
  | @number digits position decimal =>
      refine ⟨.number (String.ofList digits) position, rfl, fun t => ?_⟩
      rw [Derivation.tree, Expr.meaning_const, String.toList_ofList]
  | «variable» position => exact ⟨.variable position, rfl, fun t => rfl⟩
  | constant position c =>
      have known : Vocabulary.surface.constant? c.name = some c := by
        cases c <;> decide
      exact ⟨.constant c.name position known, rfl, fun t => by cases c <;> rfl⟩
  | group opened closed _ ih =>
      obtain ⟨d, rfl, same⟩ := ih
      exact ⟨.group opened closed d, rfl, same⟩
  | call position opened closed f _ ih =>
      have known : Vocabulary.surface.function? f.name = some (.direct f) := by
        cases f <;> decide
      obtain ⟨d, rfl, same⟩ := ih
      refine ⟨.call f.name position opened closed known d, rfl, fun t => ?_⟩
      show (Expr.call f d.tree).meaning reading t = _
      rw [Expr.meaning_call, same]
  | atom _ ih =>
      obtain ⟨d, rfl, same⟩ := ih
      exact ⟨.unsigned (.unraised d), rfl, same⟩
  | power position _ _ ihbase ihexponent =>
      obtain ⟨base, rfl, sameBase⟩ := ihbase
      obtain ⟨exponent, rfl, sameExponent⟩ := ihexponent
      refine ⟨.unsigned (.raised base position exponent), rfl, fun t => ?_⟩
      show (Derivation.raised base position exponent).tree.meaning reading t = Scalar.pow _ _
      rw [Derivation.tree, ← sameBase, ← sameExponent]
      -- powers of `e` are read as calls, which denote the same
      split
      · next e =>
        rw [Expr.meaning_call, Derivation.tree_of_isExponentialBase e]
        exact (Exact.pow_e _).symm
      · exact Expr.meaning_pow ..
  | minus position _ ih =>
      obtain ⟨d, rfl, same⟩ := ih
      refine ⟨.signed .minus position d, rfl, fun t => ?_⟩
      rw [Derivation.tree, meaning_signTree_minus, same]
  | factor _ ih =>
      obtain ⟨d, rfl, same⟩ := ih
      exact ⟨.single d, rfl, same⟩
  | mul position _ _ ihleft ihright =>
      obtain ⟨left, rfl, sameLeft⟩ := ihleft
      obtain ⟨right, rfl, sameRight⟩ := ihright
      refine ⟨.extended left .star position right, rfl, fun t => ?_⟩
      show (Expr.mul left.tree right.tree).meaning reading t = _
      rw [Expr.meaning_mul, sameLeft, sameRight]
  | div position _ _ ihleft ihright =>
      obtain ⟨left, rfl, sameLeft⟩ := ihleft
      obtain ⟨right, rfl, sameRight⟩ := ihright
      refine ⟨.extended left .slash position right, rfl, fun t => ?_⟩
      show (Expr.div left.tree right.tree).meaning reading t = _
      rw [Expr.meaning_div, sameLeft, sameRight]
  | product _ ih =>
      obtain ⟨d, rfl, same⟩ := ih
      exact ⟨.single d, rfl, same⟩
  | add position _ _ ihleft ihright =>
      obtain ⟨left, rfl, sameLeft⟩ := ihleft
      obtain ⟨right, rfl, sameRight⟩ := ihright
      refine ⟨.extended left .plus position right, rfl, fun t => ?_⟩
      show (Expr.add left.tree right.tree).meaning reading t = _
      rw [Expr.meaning_add, sameLeft, sameRight]
  | sub position _ _ ihleft ihright =>
      obtain ⟨left, rfl, sameLeft⟩ := ihleft
      obtain ⟨right, rfl, sameRight⟩ := ihright
      refine ⟨.extended left .minus position right, rfl, fun t => ?_⟩
      show (Expr.sub left.tree right.tree).meaning reading t = _
      rw [Expr.meaning_sub, sameLeft, sameRight]

namespace Expr

variable {e : Expr K}

/-- A printed formula is read back as a tree that denotes what its text says,
unless its normal form nests too deep for the grammar. -/
theorem normalize_text_eq (reading : ExactReading K) (printable : e.Printable)
    (nests : Formula.nesting 0 e.text.toList ≤ Formula.openLimit) :
    (∃ position,
      Formula.normalize (K := K) e.text = .error (.malformed (.tooDeep position))) ∨
      ∃ normal, Formula.normalize (K := K) e.text = .ok normal ∧
        ∀ t, normal.tree.meaning reading t = e.spoken reading t := by
  have written := (e.written reading printable).toSum
  have composed := composed reading printable
  obtain ⟨lexemes, phrase, reads⟩ := written.reads 0
  obtain ⟨d, derived, same⟩ := phrase.withPowers.exists_derivation
  have untouched : Formula.isUntouched e.text = false :=
    Formula.isUntouched_eq_false written.opens
  have characters : Formula.checkCharacters 0 e.text.toList = .ok () :=
    composed.checkCharacters_eq 0
  have parentheses : Formula.checkParentheses [] 0 e.text.toList = .ok () :=
    composed.checkParentheses_eq.1 nests
  have products : d.lexemes = Formula.withProducts (Formula.withPowers lexemes) := by
    rw [← derived, d.withProducts_eq]
  rcases d.normalize_eq (K := K) untouched characters parentheses reads.lexemes_eq products with
    tooDeep | ⟨normal, read, tree⟩
  · exact .inl tooDeep
  · exact .inr ⟨normal, read, fun t => by rw [tree, same]⟩

/-- Printing a formula and reading it back keeps its meaning.  The tree that
comes back denotes what the text says, and wherever no power of a negative
zero has the exponent zero that is what the formula denotes: the one is
defined where the other is, with the same value.  The trees themselves need
not be the same, as negative numbers and groups can be written in two ways. -/
theorem normalize_text_keeps_meaning (reading : ExactReading K) (printable : e.Printable)
    (nests : Formula.nesting 0 e.text.toList ≤ Formula.openLimit)
    (within : ∀ position,
      Formula.normalize (K := K) e.text ≠ .error (.malformed (.tooDeep position))) :
    ∃ normal, Formula.normalize (K := K) e.text = .ok normal ∧
      ∀ t, normal.tree.meaning reading t = e.spoken reading t ∧
        (e.SignedZerosHarmless reading t →
          normal.tree.meaning reading t = e.meaning reading t) := by
  rcases normalize_text_eq reading printable nests with ⟨position, failed⟩ | ⟨normal, done, same⟩
  · exact absurd failed (within position)
  · refine ⟨normal, done, fun t => ⟨same t, fun harmless => ?_⟩⟩
    rw [same t, spoken_eq_meaning printable harmless]

end Expr

omit [Scalar K] [Numeral K] in
theorem ne_tooDeep_of_isOk {result : Except Formula.ParseFault (Formula.Normal K)}
    (read : result.isOk = true) (position : Nat) :
    result ≠ .error (.malformed (.tooDeep position)) := by
  rintro rfl
  cases read

/-- A difference whose second operand starts with a minus sign, which is put
between parentheses and read back as it was meant. -/
theorem normalize_text_keeps_meaning_of_damped :
    damped.text = "x - (-2*e^(-x))" ∧
      ∃ normal, Formula.normalize (K := SignedDigit) damped.text = .ok normal ∧
        ∀ t, normal.tree.meaning SignedDigit.exactReading t =
          damped.meaning SignedDigit.exactReading t := by
  have printable : damped.Printable := ⟨rfl, rfl, trivial, rfl, rfl⟩
  have nests : Formula.nesting 0 damped.text.toList ≤ Formula.openLimit := by decide +kernel
  have read : (Formula.normalize (K := SignedDigit) damped.text).isOk = true := by decide +kernel
  obtain ⟨normal, done, same⟩ := Expr.normalize_text_keeps_meaning SignedDigit.exactReading
    printable nests (ne_tooDeep_of_isOk read)
  refine ⟨by decide +kernel, normal, done, fun t => (same t).2 ?_⟩
  -- the base of the only power is `e`
  exact ⟨trivial, trivial, trivial, ⟨trivial, trivial⟩, fun signed => by cases signed⟩

/-- At the point zero the formula has the value one, and what is read back
from its text has the value minus one. -/
theorem normalize_text_of_negativeZeroPower :
    negativeZeroPower.text = "-0^x" ∧
      ∃ normal, Formula.normalize (K := SignedDigit) negativeZeroPower.text = .ok normal ∧
        normal.tree.meaning SignedDigit.exactReading 0 = .real (-1) ∧
        negativeZeroPower.meaning SignedDigit.exactReading 0 = .real 1 := by
  have printable : negativeZeroPower.Printable := ⟨rfl, rfl⟩
  have nests : Formula.nesting 0 negativeZeroPower.text.toList ≤ Formula.openLimit := by
    decide +kernel
  have read : (Formula.normalize (K := SignedDigit) negativeZeroPower.text).isOk = true := by
    decide +kernel
  refine ⟨by decide +kernel, ?_⟩
  rcases Expr.normalize_text_eq SignedDigit.exactReading printable nests with
    ⟨position, failed⟩ | ⟨normal, done, same⟩
  · exact absurd failed (ne_tooDeep_of_isOk read position)
  · have signed : (Expr.const ⟨true, 0⟩ : Expr SignedDigit).isSignedZero = true := by
      decide +kernel
    have exponent : (Expr.var variableName : Expr SignedDigit).spoken
        SignedDigit.exactReading 0 = .real 0 := if_pos rfl
    have values := Expr.spoken_pow_ne_meaning printable signed exponent rfl
    exact ⟨normal, done, (same 0).trans values.1, values.2⟩

end Fluxion
