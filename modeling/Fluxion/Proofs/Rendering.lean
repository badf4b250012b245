import Fluxion.Proofs.Compilation
import Fluxion.Proofs.NormalForm
import Fluxion.Proofs.Placement
import Fluxion.Proofs.Screening
import Fluxion.Proofs.SurfaceReading

/-!
# Normal form as text

A normal form is written with nothing between its lexemes, and its text is read again: by the
grammar of normal form, when it is evaluated, and as user notation.  Its lexemes do not run into
each other, for the grammar sets an operator or a parenthesis between any two numbers and names; and
its numbers are numerals, since they are those of the user's text and the ones of reciprocals
(`numerals_of_normalized`).  So the text is cut into lexemes that say the same
(`Derivation.exists_again`), and both readers read what was written (`Derivation.parse_render`,
`Derivation.normalize_render`), but for parentheses: a normal form can have more of them open at
once than user notation may have.
-/

namespace Fluxion

open Formula (Token Lexeme IsNumeral IsName Opens Legible Composed)

/-! ### Numbers come from the text -/

/-- Lexemes whose numbers are written as numbers are. -/
def Numerals (lexemes : List Lexeme) : Prop :=
  ∀ lexeme ∈ lexemes, ∀ digits, lexeme.token = .number digits → IsNumeral digits.toList

section Numerals

variable {lexeme : Lexeme} {lexemes first second rest result : List Lexeme}

theorem numerals_nil : Numerals [] := by simp [Numerals]

/-- The first lexeme is well written if it is a number, and so are the others. -/
theorem numerals_cons :
    Numerals (lexeme :: rest) ↔
      (∀ digits, lexeme.token = .number digits → IsNumeral digits.toList) ∧ Numerals rest :=
  List.forall_mem_cons

/-- The numbers of two pieces are those of both. -/
theorem numerals_append : Numerals (first ++ second) ↔ Numerals first ∧ Numerals second :=
  List.forall_mem_append

/-- A lexeme that is no number can be put in front of others. -/
theorem Numerals.cons (h : Numerals rest) (noNumber : ∀ digits, lexeme.token ≠ .number digits) :
    Numerals (lexeme :: rest) :=
  numerals_cons.2 ⟨fun digits number => absurd number (noNumber digits), h⟩

theorem Numerals.tail (h : Numerals (lexeme :: rest)) : Numerals rest := (numerals_cons.1 h).2

theorem Numerals.replace (h : Numerals (lexeme :: rest)) (hresult : Numerals result) :
    Numerals (lexeme :: result) :=
  numerals_cons.2 ⟨(numerals_cons.1 h).1, hresult⟩

/-- What the lexer cuts as a number is a numeral, so all lexemes of a text qualify. -/
theorem numerals_of_lexemesFrom {position : Nat} {text : List Char}
    (cut : Formula.lexemesFrom position text = .ok lexemes) : Numerals lexemes := by
  have laid := Formula.laid_of_lexemesFrom cut
  clear cut
  induction laid with
  | nil => exact numerals_nil
  | blank _ _ ih => exact ih
  | token spelled _ _ ih =>
      refine numerals_cons.2 ⟨?_, ih⟩
      rintro digits rfl
      exact spelled

/-- Powers are rewritten without touching numbers. -/
theorem Numerals.withPowers (h : Numerals lexemes) : Numerals (Formula.withPowers lexemes) := by
  refine List.forall_mem_map.2 fun lexeme member => ?_
  split
  · simp
  · exact h lexeme member

/-- The added signs are no numbers. -/
theorem Numerals.withProducts (h : Numerals lexemes) : Numerals (Formula.withProducts lexemes) := by
  induction lexemes with
  | nil => exact h
  | cons first rest ih =>
      rcases withProducts_cons_cases first rest with kept | ⟨second, others, -, -, joined⟩
      · rw [kept]
        exact h.replace (ih h.tail)
      · rw [joined]
        exact h.replace ((ih h.tail).cons (by simp))

/-- Qualifying names adds no number but the one of a reciprocal, which is a numeral.
The induction is on the relation, not on the recursion of the step. -/
theorem Qualifies.numerals (step : Qualifies lexemes result) (h : Numerals lexemes) :
    Numerals result := by
  induction step with
  | nil => exact h
  | keep lexeme other _ ih => exact h.replace (ih h.tail)
  | direct position opened known _ ih => exact (ih h.tail).cons (by simp)
  | @reciprocal name f inside argument after result position opened closed known matched _ _
      ihgroup ihafter =>
      obtain ⟨hinside, hafter⟩ := numerals_append.1 h.tail.tail
      have group : Numerals (⟨.opening, opened⟩ :: (inside ++ [⟨.closing, closed⟩])) :=
        Numerals.cons (numerals_append.2 ⟨hinside, numerals_nil.cons (by simp)⟩) (by simp)
      have behind : Numerals (argument ++ ⟨.closing, closed⟩ :: result) :=
        numerals_append.2 ⟨ihgroup group, (ihafter hafter.tail).cons (by simp)⟩
      have one : IsNumeral "1".toList :=
        .inl ⟨['1'], by decide, List.all_eq_true.1 (by decide), .inl rfl⟩
      refine Numerals.cons (numerals_cons.2 ⟨?_, ?_⟩) (by simp)
      · rintro digits ⟨⟩
        exact one
      · exact (behind.cons (by simp)).cons (by simp)

/-- A group keeps its numbers when it loses its parentheses. -/
theorem Numerals.ungrouped (h : Numerals lexemes) : Numerals (Formula.ungrouped lexemes) := by
  rcases ungrouped_cases lexemes with same | ⟨opened, closed, group, -⟩
  · rwa [same]
  · rw [group] at h
    exact (numerals_append.1 h.tail).1

/-- Writing powers of `e` as calls moves numbers and adds none. -/
theorem Exponentiates.numerals (step : Exponentiates lexemes result) (h : Numerals lexemes) :
    Numerals result := by
  induction step with
  | nil => exact h
  | keep lexeme other _ ih => exact h.replace (ih h.tail)
  | @power exponent operand after argument result position place cut _ _ ihoperand ihafter =>
      have exponent := h.tail.tail
      rw [Formula.eq_of_cutOperand cut] at exponent
      obtain ⟨hoperand, hafter⟩ := numerals_append.1 exponent
      have behind : Numerals (argument ++ ⟨.closing, position⟩ :: result) :=
        numerals_append.2 ⟨ihoperand hoperand.ungrouped, (ihafter hafter).cons (by simp)⟩
      exact (behind.cons (by simp)).cons (by simp)

/-- Constants are no numbers, so qualifying them keeps all that are there. -/
theorem Numerals.qualifiedConstants (h : Numerals lexemes) :
    Numerals (lexemes.map qualifiedConstant) := by
  refine List.forall_mem_map.2 fun lexeme member => ?_
  obtain ⟨token, position⟩ := lexeme
  cases token with
  | ident name => rintro digits ⟨⟩
  | _ => exact h _ member

/-- The numbers of a normal form are those of the text, and the ones of
reciprocals. -/
theorem numerals_of_normalized (done : Formula.normalized lexemes = .ok result)
    (h : Numerals lexemes) : Numerals result := by
  obtain ⟨qualified, exponentials, hqualified, hexponentials, rfl⟩ := normalized_eq_ok_iff.1 done
  exact (hexponentials.numerals (hqualified.numerals h.withPowers.withProducts)).qualifiedConstants

end Numerals

/-! ### What is written is read again -/

/-- The text of lexemes does not depend on their positions. -/
theorem render_congr {first second : List Lexeme}
    (same : first.map Lexeme.token = second.map Lexeme.token) :
    Formula.render first = Formula.render second := by
  have texts := congrArg (List.map Token.text) same
  rw [List.map_map, List.map_map] at texts
  exact congrArg String.join texts

/-! ### Names and operators -/

/-- A name of normal form is spelled as the lexer reads names: letters, and
one point at most. -/
theorem Vocabulary.spelled_of_spells {name : String} (h : normal.Spells (.ident name)) :
    IsName name.toList ∧ Opens name.toList := by
  rcases name_cases h with rfl | ⟨c, rfl⟩ | ⟨f, rfl⟩
  · exact ⟨.of_letters (by decide) (by decide), 'x', [], rfl, by decide⟩
  · exact qualified_spelled c.name_spelled
  · exact qualified_spelled f.name_spelled

/-- An operator is one character, which is what joins two texts. -/
theorem Operator.exists_char {s : Strength} (operator : Operator s) :
    ∃ c, operator.token.text.toList = [c] ∧ (c, operator.token) ∈ Formula.symbols := by
  cases operator <;> exact ⟨_, rfl, by decide⟩

theorem Operator.composed {s : Strength} (operator : Operator s) :
    Composed operator.token.text.toList :=
  .of_all (by cases operator <;> decide)

theorem toList_render_singleton (token : Token) (position : Nat) :
    (Formula.render [⟨token, position⟩]).toList = token.text.toList := by
  rw [toList_render_cons]
  exact List.append_nil _

/-- A group is written as what it holds between two parentheses. -/
theorem toList_render_group (opened closed : Nat) (lexemes : List Lexeme) :
    (Formula.render (⟨.opening, opened⟩ :: (lexemes ++ [⟨.closing, closed⟩]))).toList =
      '(' :: ((Formula.render lexemes).toList ++ [')']) := by
  have opening : Token.opening.text.toList = ['('] := by decide
  have closing : Token.closing.text.toList = [')'] := by decide
  rw [toList_render_cons, toList_render_append, toList_render_singleton, opening, closing]
  rfl

/-- Two pieces joined by a token are written with the token between them, and
with nothing else. -/
theorem toList_render_joined (token : Token) (position : Nat) (first second : List Lexeme) :
    (Formula.render (first ++ ⟨token, position⟩ :: second)).toList =
      (Formula.render first).toList ++ token.text.toList ++ (Formula.render second).toList := by
  rw [toList_render_append, toList_render_cons, List.append_assoc]

/-- Lexemes that say the same in the same words, at whatever places. -/
abbrev SameTokens (lexemes again : List Lexeme) : Prop :=
  again.map Lexeme.token = lexemes.map Lexeme.token

/-- A name is read back in front of whatever cannot be part of it. -/
theorem legible_name {name : String} (position : Nat)
    (spells : Vocabulary.normal.Spells (.ident name)) :
    Legible (SameTokens [⟨.ident name, position⟩])
      (Formula.render [⟨.ident name, position⟩]).toList := by
  obtain ⟨spelled, opens⟩ := Vocabulary.spelled_of_spells spells
  rw [toList_render_singleton]
  exact .name spelled opens fun _ => rfl

namespace Derivation

variable {r : Rule}

/-- A normal form is read as it is written. -/
theorem legible (d : Derivation .normal r) (numerals : Numerals d.lexemes) :
    Legible (SameTokens d.lexemes) (Formula.render d.lexemes).toList := by
  induction d with
  | number text position =>
      rw [lexemes, toList_render_singleton]
      refine .number ((numerals_cons.1 numerals).1 text rfl) fun place => ?_
      simp [SameTokens, Token.text]
  | «variable» position => exact legible_name position (.inl rfl)
  | constant _ position known => exact legible_name position (Vocabulary.spells_constant known)
  | call name position opened closed known argument ih =>
      obtain ⟨spelled, opens⟩ :=
        Vocabulary.spelled_of_spells (Vocabulary.spells_function known)
      have within := ih (numerals_append.1 numerals.tail.tail).1
      rw [lexemes, toList_render_cons, toList_render_group]
      refine within.call (fun place => [⟨.ident name, place⟩]) (fun _ _ _ same => ?_)
        (opens.append _) fun place => Formula.reads_name place spelled
      simpa [SameTokens] using same
  | group opened closed inside ih =>
      have within := ih (numerals_append.1 numerals.tail).1
      rw [lexemes, toList_render_group]
      refine within.group fun _ _ same => ?_
      simpa [SameTokens] using same
  | unraised _ ih | unsigned _ ih | single _ ih => exact ih numerals
  | raised base position exponent ihbase ihexponent =>
      obtain ⟨hbase, hexponent⟩ := numerals_append.1 numerals
      have power (place : Nat) :=
        (Formula.reads_power place).mono fun rest (_ : Opens rest) => trivial
      rw [lexemes, toList_render_joined]
      refine Legible.join 0 (fun place first second => ?_) power (fun _ => ?_) (ihbase hbase)
        (ihexponent hexponent.tail)
      · simp [SameTokens, first, second]
      · exact Formula.ends_cons (by decide)
  | signed sign position operand ih =>
      obtain ⟨c, text, symbol⟩ := sign.exists_char
      rw [lexemes, toList_render_cons, text]
      refine (ih numerals.tail).signed (fun place same => ?_) symbol ?_
      · simpa [SameTokens] using same
      · cases sign <;> cases text <;> decide
  | extended left operator position right ihleft ihright =>
      obtain ⟨hleft, hright⟩ := numerals_append.1 numerals
      obtain ⟨c, text, symbol⟩ := operator.exists_char
      rw [lexemes, toList_render_joined, text]
      refine .tight c _ (fun place first second => ?_) symbol (ihleft hleft) (ihright hright.tail)
      simp [SameTokens, first, second]

/-- The text of a normal form is made of known characters and groups. -/
theorem composed (d : Derivation .normal r) (numerals : Numerals d.lexemes) :
    Composed (Formula.render d.lexemes).toList := by
  induction d with
  | number text position =>
      rw [lexemes, toList_render_singleton]
      exact .of_numeral ((numerals_cons.1 numerals).1 text rfl)
  | «variable» position =>
      rw [lexemes, toList_render_singleton]
      exact .of_name (Vocabulary.spelled_of_spells (.inl rfl)).1
  | constant name position known =>
      rw [lexemes, toList_render_singleton]
      exact .of_name (Vocabulary.spelled_of_spells (Vocabulary.spells_constant known)).1
  | call name position opened closed known argument ih =>
      have spelled := (Vocabulary.spelled_of_spells (Vocabulary.spells_function known)).1
      rw [lexemes, toList_render_cons, toList_render_group]
      exact (Composed.of_name spelled).append (ih (numerals_append.1 numerals.tail.tail).1).group
  | group opened closed inside ih =>
      rw [lexemes, toList_render_group]
      exact (ih (numerals_append.1 numerals.tail).1).group
  | unraised _ ih | unsigned _ ih | single _ ih => exact ih numerals
  | raised base position exponent ihbase ihexponent =>
      obtain ⟨hbase, hexponent⟩ := numerals_append.1 numerals
      rw [lexemes, toList_render_joined]
      exact ((ihbase hbase).append (.of_all (by decide))).append (ihexponent hexponent.tail)
  | signed sign position operand ih =>
      rw [lexemes, toList_render_cons]
      exact sign.composed.append (ih numerals.tail)
  | extended left operator position right ihleft ihright =>
      obtain ⟨hleft, hright⟩ := numerals_append.1 numerals
      rw [lexemes, toList_render_joined]
      exact ((ihleft hleft).append operator.composed).append (ihright hright.tail)

/-- The text of a normal form is cut into its lexemes again, and what they say
has not changed. -/
theorem exists_again (d : Derivation .normal .sum) (numerals : Numerals d.lexemes) :
    ∃ again : Derivation .normal .sum,
      Formula.lexemes (Formula.render d.lexemes) = .ok again.lexemes ∧
        SameTokens d.lexemes again.lexemes ∧ d.Alike again := by
  obtain ⟨lexemes, same, reads⟩ := (d.legible numerals).reads 0
  have tokens : List.Forall₂ (fun a b => a.token = b.token) d.lexemes lexemes := by
    have eq : List.Forall₂ Eq (d.lexemes.map Lexeme.token) (lexemes.map Lexeme.token) :=
      List.forall₂_eq_eq_eq ▸ same.symm
    exact List.forall₂_map_right_iff.1 (List.forall₂_map_left_iff.1 eq)
  obtain ⟨again, rfl, alike⟩ := (renaming_position .normal).exists_derivation d tokens
  exact ⟨again, reads.lexemes_eq, same, alike⟩

end Derivation

/-! ### Reading again -/

/-- Lexemes of normal form come from those of the text by the steps, after the
checks have passed. -/
theorem exists_of_normalLexemes {text : String} {result : List Lexeme}
    (done : Formula.normalLexemes text = .ok result) :
    ∃ lexemes, Formula.lexemes text = .ok lexemes ∧ Formula.normalized lexemes = .ok result := by
  unfold Formula.normalLexemes at done
  split at done
  · cases done
  obtain ⟨_, -, done⟩ := bind_eq_ok done
  obtain ⟨_, -, done⟩ := bind_eq_ok done
  obtain ⟨lexemes, cut, done⟩ := bind_eq_ok done
  exact ⟨lexemes, mapError_eq_ok cut, done⟩

section Again

variable {K : Type} [Scalar K] [Numeral K] {text : String} {normal : Formula.Normal K}

/-- What is handed out is the text and the tree of a derivation. -/
theorem exists_of_normalize (read : Formula.normalize text = .ok normal) :
    ∃ d : Derivation .normal .sum,
      Formula.normalLexemes text = .ok d.lexemes ∧ Numerals d.lexemes ∧
        d.nesting ≤ Formula.nestingLimit ∧ normal = ⟨Formula.render d.lexemes, d.tree⟩ := by
  obtain ⟨lexemes, done, read⟩ := bind_eq_ok read
  obtain ⟨tree, parsed, read⟩ := bind_eq_ok read
  obtain ⟨d, rfl, within, rfl⟩ := exists_derivation_of_parseLexemes (mapError_eq_ok parsed)
  obtain ⟨cut, first, steps⟩ := exists_of_normalLexemes done
  cases read
  exact ⟨d, done, numerals_of_normalized steps (numerals_of_lexemesFrom first), within, rfl⟩

/-- The grammar reads the text of a normal form as its tree, provided that it
nests within the limit. -/
theorem Derivation.parse_render (d : Derivation .normal .sum) (numerals : Numerals d.lexemes)
    (within : d.nesting ≤ Formula.nestingLimit) :
    Formula.parse (Formula.render d.lexemes) = .ok (d.tree (K := K)) := by
  obtain ⟨again, cut, -, alike⟩ := d.exists_again numerals
  rw [Formula.parse, cut, ← alike.tree]
  exact again.parseLexemes_eq (alike.nesting ▸ within)

/-- As user notation the text of a normal form is read as itself, or refused
for the parentheses that are open in it at once. -/
theorem Derivation.normalize_render (d : Derivation .normal .sum) (numerals : Numerals d.lexemes)
    (within : d.nesting ≤ Formula.nestingLimit) {text : String}
    (written : Formula.render d.lexemes = text) :
    (Formula.nesting 0 text.toList ≤ Formula.openLimit →
        Formula.normalize text = .ok ⟨text, d.tree (K := K)⟩) ∧
      (Formula.openLimit < Formula.nesting 0 text.toList →
        ∃ position, Formula.normalize (K := K) text = .error (.tooManyOpen position)) := by
  subst written
  have touched := Formula.isUntouched_eq_false (d.legible numerals).opens
  have composed := d.composed numerals
  have characters := composed.checkCharacters_eq 0
  refine ⟨fun few => ?_, fun many => ?_⟩
  · have parentheses := composed.checkParentheses_eq.1 few
    obtain ⟨again, cut, same, alike⟩ := d.exists_again numerals
    have read : Formula.parseLexemes again.lexemes = .ok (again.tree (K := K)) :=
      again.parseLexemes_eq (alike.nesting ▸ within)
    rw [Fluxion.normalize_eq touched characters parentheses cut, again.settled.normalized_eq,
      Except.bind, read, render_congr same, alike.tree]
    rfl
  · obtain ⟨position, failed⟩ := composed.checkParentheses_eq.2 many
    refine ⟨position, ?_⟩
    rw [Formula.normalize, Formula.normalLexemes, touched, characters, failed]
    rfl

/-- Whoever reads the text of a normal form reads what it was written from: its
lexemes are those that were written, no step on the way to normal form changes them,
and the grammar and the evaluator read the same tree.  Positions are not the same,
since the text has no blanks and other characters before a place. -/
theorem normal_text_reads_back (read : Formula.normalize text = .ok normal) :
    ∃ lexemes again : List Lexeme,
      Formula.normalLexemes text = .ok lexemes ∧ normal.text = Formula.render lexemes ∧
        Formula.lexemes normal.text = .ok again ∧
        again.map Lexeme.token = lexemes.map Lexeme.token ∧
        Formula.Settled lexemes ∧ Formula.Settled again ∧
        Formula.parse normal.text = .ok normal.tree ∧
        ∃ f : Callable K, Callable.ofNormalText normal.text = .ok f ∧
          f.source = normal.text ∧ f.tree = normal.tree := by
  obtain ⟨d, done, numerals, within, rfl⟩ := exists_of_normalize read
  obtain ⟨again, cut, same, -⟩ := d.exists_again numerals
  have parsed := d.parse_render (K := K) numerals within
  refine ⟨d.lexemes, again.lexemes, done, rfl, cut, same, d.settled, again.settled, parsed, ?_⟩
  rw [Callable.ofNormalText, parsed]
  exact Callable.exists_ofTree _ d.foreignVariable?_tree

/-- A normal form with a reciprocal, a power and a call that was a power of `e`. -/
theorem normal_text_reads_back_of_sec :
    ∃ normal : Formula.Normal SignedDigit,
      Formula.normalize "2x^.5 + sec(pi)e^-x" = .ok normal ∧
        normal.text = "2*x**.5+(1/math.cos(math.pi))*math.exp(-x)" ∧
        ∃ f : Callable SignedDigit, Callable.ofNormalText normal.text = .ok f ∧
          f.source = normal.text ∧ f.tree = normal.tree := by
  have read : (Formula.normalize (K := SignedDigit) "2x^.5 + sec(pi)e^-x").map
      Formula.Normal.text = .ok "2*x**.5+(1/math.cos(math.pi))*math.exp(-x)" := by decide +kernel
  obtain ⟨normal, done, text⟩ := map_eq_ok read
  obtain ⟨_, _, -, -, -, -, -, -, -, callable⟩ := normal_text_reads_back done
  exact ⟨normal, done, text, callable⟩

/-- Normalizing is idempotent, up to the number of parentheses that user
notation may have open at once.  A normal form can have more of them than the
text it stems from, as reciprocals and exponentials add some, and then it is
refused for just that. -/
theorem normalize_idempotent (read : Formula.normalize text = .ok normal) :
    (Formula.nesting 0 normal.text.toList ≤ Formula.openLimit →
        Formula.normalize normal.text = .ok normal) ∧
      (Formula.openLimit < Formula.nesting 0 normal.text.toList →
        ∃ position, Formula.normalize (K := K) normal.text = .error (.tooManyOpen position)) := by
  obtain ⟨d, -, numerals, within, rfl⟩ := exists_of_normalize read
  exact d.normalize_render numerals within rfl

/-- A text in so many pairs of parentheses. -/
def enclosed (n : Nat) (text : List Char) : String :=
  String.ofList (List.replicate n '(' ++ text ++ List.replicate n ')')

/-- The normal form of a cosecant is read as itself.  In as many parentheses
as leave room for the cosecant's own and no more, it is refused for those that
the reciprocal adds. -/
theorem normalize_idempotent_of_csc :
    (∃ normal : Formula.Normal SignedDigit, Formula.normalize "csc(x)" = .ok normal ∧
      normal.text = "(1/math.sin(x))" ∧ Formula.normalize normal.text = .ok normal) ∧
    ∃ normal : Formula.Normal SignedDigit,
      Formula.normalize (enclosed 63 "csc(x)".toList) = .ok normal ∧
        ∃ position, Formula.normalize (K := SignedDigit) normal.text =
          .error (.tooManyOpen position) := by
  constructor
  · have read : (Formula.normalize (K := SignedDigit) "csc(x)").map Formula.Normal.text =
        .ok "(1/math.sin(x))" := by decide +kernel
    obtain ⟨normal, done, text⟩ := map_eq_ok read
    exact ⟨normal, done, text, (normalize_idempotent done).1 (by rw [text]; decide +kernel)⟩
  · have read : (Formula.normalize (K := SignedDigit) (enclosed 63 "csc(x)".toList)).map
        (fun normal => Formula.nesting 0 normal.text.toList) = .ok 65 := by
      -- the characters are known, and need not be found in the bytes of the text
      simp only [enclosed, Formula.normalize, Formula.normalLexemes, Formula.isUntouched,
        Formula.lexemes, String.toList_ofList]
      decide +kernel
    obtain ⟨normal, done, nests⟩ := map_eq_ok read
    exact ⟨normal, done, (normalize_idempotent done).2 (by rw [nests]; decide)⟩

end Again

end Fluxion
