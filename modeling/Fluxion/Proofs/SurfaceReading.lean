import Fluxion.Proofs.Lexing
import Fluxion.Proofs.Normalizing
import Fluxion.Proofs.Recognition
import Fluxion.Proofs.SignedDigit
import Mathlib.Data.List.TakeWhile

/-!
# What user notation says

The reader of formulas never looks at user notation as a whole: it rewrites lexemes step by step and
reads what comes out.  Nevertheless it reads user notation by its own grammar, whose derivations are
those of `Vocabulary.surface`.  The tree that it hands out is that of the only derivation of the
lexemes, and when it refuses them for another reason than nesting, there is none
(`normalize_reads_surface`).
-/

namespace Fluxion

open Formula (Token Lexeme)
open Fluxion.Text (isBlank)

/-! ### Fields left alone -/

section Untouched

theorem lexemesFrom_of_blank {text : List Char} (blank : ∀ c ∈ text, isBlank c = true)
    (position : Nat) : Formula.lexemesFrom position text = .ok [] := by
  induction text generalizing position with
  | nil => rw [Formula.lexemesFrom]
  | cons c rest ih =>
      rw [Formula.lexemesFrom, if_pos (blank c List.mem_cons_self)]
      exact ih (fun d hd => blank d (List.mem_cons_of_mem c hd)) (position + 1)

/-- Blanks in front of a text only move its lexemes. -/
theorem exists_lexemesFrom_trimStart (text : List Char) (position : Nat) :
    ∃ place, Formula.lexemesFrom position text =
      Formula.lexemesFrom place (Text.trimStart text) := by
  induction text generalizing position with
  | nil => exact ⟨position, rfl⟩
  | cons c rest ih =>
      cases blank : isBlank c with
      | false =>
          refine ⟨position, ?_⟩
          rw [Text.trimStart, List.dropWhile_cons_of_neg (by simp [blank])]
      | true =>
          rw [Formula.lexemesFrom, if_pos blank, Text.trimStart, List.dropWhile_cons_of_pos blank]
          exact ih (position + 1)

/-- A trimmed text lacks nothing but blanks. -/
theorem exists_trimStart_eq (text : List Char) :
    ∃ blanks, Text.trimStart text = Text.trim text ++ blanks ∧ ∀ c ∈ blanks, isBlank c = true := by
  refine ⟨((Text.trimStart text).reverse.takeWhile isBlank).reverse, ?_, fun c hc => ?_⟩
  · have halves : (Text.trimStart text).reverse.takeWhile isBlank ++
        Text.trimStart (Text.trimStart text).reverse = (Text.trimStart text).reverse :=
      List.takeWhile_append_dropWhile
    rw [Text.trim, ← List.reverse_append, halves, List.reverse_reverse]
  · exact List.mem_takeWhile_imp (List.mem_reverse.1 hc)

/-- The lexemes of a field left alone are none, or start with an unknown name. -/
theorem lexemes_of_isUntouched {text : String} {lexemes : List Lexeme}
    (untouched : Formula.isUntouched text = true) (cut : Formula.lexemes text = .ok lexemes) :
    lexemes = [] ∨ ∃ position rest, lexemes = ⟨.ident "Enter", position⟩ :: rest := by
  obtain ⟨place, moved⟩ := exists_lexemesFrom_trimStart text.toList 0
  obtain ⟨blanks, whole, blank⟩ := exists_trimStart_eq text.toList
  rw [Formula.lexemes, moved, whole] at cut
  rcases Bool.or_eq_true_iff.1 untouched with empty | same
  · rw [List.isEmpty_iff.1 empty, List.nil_append, lexemesFrom_of_blank blank] at cut
    exact .inl (Except.ok.inj cut).symm
  · have name : Formula.Reads Formula.Ends place "Enter".toList [⟨.ident "Enter", place⟩] :=
      Formula.reads_name place (.of_letters (by decide) (by decide))
    have front := name (" your function here".toList ++ blanks) (Formula.ends_cons (by decide))
    have split : Text.trim text.toList ++ blanks =
        "Enter".toList ++ (" your function here".toList ++ blanks) := by
      rw [beq_iff_eq.1 same, ← List.append_assoc]
      rfl
    rw [split, front] at cut
    obtain ⟨rest, -, rfl⟩ := map_eq_ok cut
    exact .inr ⟨place, rest, rfl⟩

/-- The step that writes products out keeps the first lexeme. -/
theorem exists_withProducts_cons (first : Lexeme) (rest : List Lexeme) :
    ∃ behind, Formula.withProducts (first :: rest) = first :: behind := by
  rcases withProducts_cons_cases first rest with kept | ⟨second, others, rfl, -, joined⟩
  · exact ⟨_, kept⟩
  · exact ⟨_, joined⟩

/-- A field left alone says nothing. -/
theorem ne_lexemes_of_isUntouched {text : String} {lexemes : List Lexeme}
    (untouched : Formula.isUntouched text = true) (cut : Formula.lexemes text = .ok lexemes)
    (d : Derivation .surface .sum) :
    d.lexemes ≠ Formula.withProducts (Formula.withPowers lexemes) := by
  intro same
  rcases lexemes_of_isUntouched untouched cut with rfl | ⟨position, rest, rfl⟩
  · exact d.lexemes_ne_nil same
  · obtain ⟨behind, head⟩ :=
      exists_withProducts_cons ⟨.ident "Enter", position⟩ (Formula.withPowers rest)
    have member : ⟨.ident "Enter", position⟩ ∈ d.lexemes := by
      rw [same]
      exact head ▸ List.mem_cons_self
    have unknown : ¬ Vocabulary.surface.Spells (.ident "Enter") := by
      rintro (same | known | known)
      · exact absurd same (by decide)
      · exact absurd known (by decide)
      · exact absurd known (by decide)
    exact unknown (d.spells_of_mem _ member)

end Untouched

/-! ### Reading -/

section Reading

variable {K : Type} [Scalar K] [Numeral K] {text : String} {lexemes : List Lexeme}

/-- The steps of the reader behind its checks. -/
theorem normalize_eq (touched : Formula.isUntouched text = false)
    (characters : Formula.checkCharacters 0 text.toList = .ok ())
    (parentheses : Formula.checkParentheses [] 0 text.toList = .ok ())
    (cut : Formula.lexemes text = .ok lexemes) :
    Formula.normalize (K := K) text =
      (Formula.normalized lexemes).bind fun result =>
        ((Formula.parseLexemes result).mapError .ofGrammar).map fun tree =>
          ⟨Formula.render result, tree⟩ := by
  rw [Formula.normalize, Formula.normalLexemes, touched, characters, parentheses, cut]
  rfl

/-- What has a derivation in user notation is read as its tree, or its normal
form nests too deep. -/
theorem Derivation.normalize_eq (d : Derivation .surface .sum)
    (touched : Formula.isUntouched text = false)
    (characters : Formula.checkCharacters 0 text.toList = .ok ())
    (parentheses : Formula.checkParentheses [] 0 text.toList = .ok ())
    (cut : Formula.lexemes text = .ok lexemes)
    (written : d.lexemes = Formula.withProducts (Formula.withPowers lexemes)) :
    (∃ position, Formula.normalize (K := K) text = .error (.malformed (.tooDeep position))) ∨
      ∃ normal, Formula.normalize (K := K) text = .ok normal ∧ normal.tree = d.tree := by
  obtain ⟨d', done, same⟩ := d.exists_normal written.symm
  rw [Fluxion.normalize_eq touched characters parentheses cut, done]
  rcases d'.parseLexemes_reaches (K := K) with ⟨-, read⟩ | ⟨-, position, failed⟩
  · exact .inr ⟨⟨Formula.render d'.lexemes, d'.tree⟩, by rw [Except.bind, read]; rfl, same⟩
  · exact .inl ⟨position, by rw [Except.bind, failed]; rfl⟩

/-- The tree that is read is that of a derivation in user notation. -/
theorem exists_surface_of_normalize {normal : Formula.Normal K}
    (touched : Formula.isUntouched text = false)
    (characters : Formula.checkCharacters 0 text.toList = .ok ())
    (parentheses : Formula.checkParentheses [] 0 text.toList = .ok ())
    (cut : Formula.lexemes text = .ok lexemes)
    (read : Formula.normalize text = .ok normal) :
    ∃ d : Derivation .surface .sum,
      d.lexemes = Formula.withProducts (Formula.withPowers lexemes) ∧ d.tree = normal.tree := by
  have steps := normalize_eq (K := K) touched characters parentheses cut
  rw [read] at steps
  obtain ⟨result, done, parsed⟩ := bind_eq_ok steps.symm
  obtain ⟨tree, parsedTree, rfl⟩ := map_eq_ok parsed
  obtain ⟨d', rfl, -, rfl⟩ := exists_derivation_of_parseLexemes (mapError_eq_ok parsedTree)
  obtain ⟨d, written, same⟩ := d'.exists_surface_alike done
  exact ⟨d, written.symm, same.symm⟩

/-- User notation is read by its own grammar, on the lexemes with powers and
products written out.  What is read has exactly one derivation, and the tree
is its tree; what is refused, and not because it nests too deep, has none.  So
names and exponentials are not only rewritten but understood: the rewriting
takes derivations to derivations, in both directions. -/
theorem normalize_reads_surface
    (characters : Formula.checkCharacters 0 text.toList = .ok ())
    (parentheses : Formula.checkParentheses [] 0 text.toList = .ok ())
    (cut : Formula.lexemes text = .ok lexemes) :
    (∀ normal, Formula.normalize (K := K) text = .ok normal →
      ∃ d : Derivation .surface .sum,
        d.lexemes = Formula.withProducts (Formula.withPowers lexemes) ∧
          (∀ other : Derivation .surface .sum,
            other.lexemes = Formula.withProducts (Formula.withPowers lexemes) → other = d) ∧
          d.tree = normal.tree) ∧
    ∀ fault, Formula.normalize (K := K) text = .error fault →
      (∀ position, fault ≠ .malformed (.tooDeep position)) →
        ∀ d : Derivation .surface .sum,
          d.lexemes ≠ Formula.withProducts (Formula.withPowers lexemes) := by
  cases touched : Formula.isUntouched text with
  | true =>
      have nothing : Formula.normalize (K := K) text = .error .empty := by
        rw [Formula.normalize, Formula.normalLexemes, touched]
        rfl
      refine ⟨fun normal read => ?_, fun fault _ _ => ne_lexemes_of_isUntouched touched cut⟩
      cases nothing.symm.trans read
  | false =>
      refine ⟨fun normal read => ?_, fun fault failed other d written => ?_⟩
      · obtain ⟨d, written, same⟩ :=
          exists_surface_of_normalize touched characters parentheses cut read
        refine ⟨d, written, fun d' written' => ?_, same⟩
        exact Derivation.eq_of_lexemes_eq (written'.trans written.symm)
      · rcases d.normalize_eq (K := K) touched characters parentheses cut written with
          ⟨position, tooDeep⟩ | ⟨normal, read, -⟩
        · exact other position (Except.error.inj (failed.symm.trans tooDeep))
        · cases failed.symm.trans read

end Reading

/-- A power of `e` with a sign and a reciprocal in its exponent is read, and
an operator with nothing behind it is not. -/
theorem normalize_reads_surface_of_cosecant :
    (∃ (normal : Formula.Normal SignedDigit) (d : Derivation .surface .sum),
      Formula.normalize "e^-csc(x)" = .ok normal ∧
        normal.text = "math.exp(-(1/math.sin(x)))" ∧
        d.lexemes = [⟨.ident "e", 0⟩, ⟨.power, 1⟩, ⟨.minus, 2⟩, ⟨.ident "csc", 3⟩, ⟨.opening, 6⟩,
          ⟨.ident "x", 7⟩, ⟨.closing, 8⟩] ∧
        d.tree = normal.tree) ∧
      ∀ d : Derivation .surface .sum, d.lexemes ≠ [⟨.ident "x", 0⟩, ⟨.plus, 1⟩] := by
  constructor
  · have read : (Formula.normalize (K := SignedDigit) "e^-csc(x)").map Formula.Normal.text =
        .ok "math.exp(-(1/math.sin(x)))" := by decide +kernel
    have cut : Formula.lexemes "e^-csc(x)" = .ok [⟨.ident "e", 0⟩, ⟨.caret, 1⟩, ⟨.minus, 2⟩,
        ⟨.ident "csc", 3⟩, ⟨.opening, 6⟩, ⟨.ident "x", 7⟩, ⟨.closing, 8⟩] := by decide +kernel
    obtain ⟨normal, done, text⟩ := map_eq_ok read
    obtain ⟨d, written, -, same⟩ :=
      (normalize_reads_surface (by decide +kernel) (by decide +kernel) cut).1 normal done
    exact ⟨normal, d, done, text, written, same⟩
  · have refused : (Formula.normalize (K := SignedDigit) "x+").map Formula.Normal.text =
        .error (.malformed .unexpectedEnd) := by decide +kernel
    have cut : Formula.lexemes "x+" = .ok [⟨.ident "x", 0⟩, ⟨.plus, 1⟩] := by decide +kernel
    cases failed : Formula.normalize (K := SignedDigit) "x+" with
    | ok normal =>
        rw [failed] at refused
        cases refused
    | error fault =>
        rw [failed] at refused
        cases refused
        exact (normalize_reads_surface (by decide +kernel) (by decide +kernel) cut).2 _ failed
          (by simp)

end Fluxion
