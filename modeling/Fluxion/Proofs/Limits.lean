import Mathlib
import Fluxion.Proofs.Binary64
import Fluxion.Proofs.Located
import Fluxion.Proofs.Records

/-!
# Limits of integration

A limit is a number or a formula without the variable, and the formula is evaluated at one point.
Which point that is makes no difference: where the variable does not occur, evaluation takes the
same branches at any two points and ends with the same value or the same fault
(`Expr.evaluate_congr`).

A text that is a number is never read as a formula.  This hides no variable, because no number is
written with the letter of the variable (`Decimal.not_mem_of_number?`), and a formula that mentions
it is (`mem_of_mentions`).
-/

namespace Fluxion

open Formula (Lexeme)

/-! ### Two runs -/

section Runs

variable {K : Type} [Scalar K]

/-- Without the variable evaluation does not depend on the point, and neither
do its faults. -/
theorem Expr.evaluate_congr {e : Expr K} {c : Compiled K} (compiles : e.compile = .ok c)
    (absent : e.mentions variableName = false) (x y : K) : c.evaluate x = c.evaluate y := by
  induction e generalizing c with
  | var name =>
    rw [compile] at compiles
    split at compiles
    · next same => exact absurd same (beq_eq_false_iff_ne.1 absent)
    · cases compiles
  | const | named =>
    cases compiles
    rfl
  | add u v left right | sub u v left right | mul u v left right | div u v left right
  | pow u v left right =>
    obtain ⟨absentLeft, absentRight⟩ := Bool.or_eq_false_iff.1 absent
    obtain ⟨a, b, compiledLeft, compiledRight, made⟩ := bind₂_eq_ok compiles
    cases made
    -- both runs have the same results to go on with
    rw [Compiled.evaluate, Compiled.evaluate, left compiledLeft absentLeft,
      right compiledRight absentRight]
  | call f u argument =>
    obtain ⟨a, compiled, made⟩ := bind_eq_ok compiles
    cases made
    rw [Compiled.evaluate, Compiled.evaluate, argument compiled absent]

variable {f : Callable K} {v x y : K}

/-- A formula without the variable has the same value at all points, and none
at all points alike. -/
theorem Callable.eval_eq_ok_congr (absent : f.tree.mentions variableName = false) :
    f.eval x = .ok v ↔ f.eval y = .ok v := by
  rw [eval_eq_ok_iff, eval_eq_ok_iff, Expr.evaluate_congr f.compile_tree absent x y]

end Runs

/-! ### Formulas that mention the variable -/

section Names

variable {K : Type} [Scalar K] [Numeral K]

/-- Whoever mentions the variable writes its letter.  So a text without the
letter is a formula without the variable. -/
theorem mem_of_mentions {text : String} {normal : Formula.Normal K}
    (read : Formula.normalize text = .ok normal)
    (occurs : normal.tree.mentions variableName = true) : 'x' ∈ text.toList := by
  obtain ⟨d', done, -, -, rfl⟩ := exists_of_normalize read
  obtain ⟨lexemes, cut, steps⟩ := exists_of_normalLexemes done
  obtain ⟨d, written, same⟩ := d'.exists_surface_alike steps
  rw [same] at occurs
  obtain ⟨-, position, member⟩ := d.exists_mem_of_mentions occurs
  rw [← written] at member
  have spelled : ['x'] <+: text.toList.drop position :=
    prefix_of_mem cut (name_of_withPowers (name_of_withProducts member))
  exact List.mem_of_mem_drop (spelled.subset (.head _))

end Names

/-! ### Numbers -/

namespace Decimal

open Fluxion.Text (isDigit nat?)

variable {text : List Char}

/-- The letter is no digit, so skipping digits never passes it. -/
theorem mem_dropWhile_isDigit (letter : 'x' ∈ text) : 'x' ∈ text.dropWhile isDigit := by
  rw [← List.takeWhile_append_dropWhile (p := isDigit) (l := text), List.mem_append] at letter
  refine letter.resolve_left fun digit => ?_
  exact absurd (List.mem_takeWhile_imp digit) (by decide)

theorem not_mem_of_nat? {n : Nat} (read : nat? text = some n) : 'x' ∉ text := by
  intro letter
  rw [nat?] at read
  split at read
  · next digits =>
    rw [Bool.and_eq_true, List.all_eq_true] at digits
    exact absurd (digits.2 _ letter) (by decide)
  · cases read

theorem mem_cutSign (letter : 'x' ∈ text) : 'x' ∈ (cutSign text).2 := by
  unfold cutSign
  split
  · exact (List.mem_cons.1 letter).resolve_left (by decide)
  · exact (List.mem_cons.1 letter).resolve_left (by decide)
  · exact letter

/-- Cutting digits and a point off leaves the letter in the text. -/
theorem mem_cutFraction (letter : 'x' ∈ text) : 'x' ∈ (cutFraction text).2 := by
  unfold cutFraction
  split
  · exact mem_dropWhile_isDigit ((List.mem_cons.1 letter).resolve_left (by decide))
  · exact letter

theorem not_mem_of_exponent? {n : Int} (read : exponent? text = some n) : 'x' ∉ text := by
  intro letter
  cases text with
  | nil => cases letter
  | cons mark rest =>
    rw [exponent?] at read
    split at read
    · next marked =>
      obtain ⟨size, digits, -⟩ := Option.map_eq_some_iff.1 read
      rcases List.mem_cons.1 letter with rfl | letter
      · exact absurd marked (by decide)
      · exact not_mem_of_nat? digits (mem_cutSign letter)
    · cases read

theorem not_mem_of_unsigned? {value : Float} (read : unsigned? text = some value) :
    'x' ∉ text := by
  intro letter
  rw [unsigned?] at read
  dsimp only at read
  split at read
  · cases read
  · obtain ⟨exponent, read, -⟩ := Option.map_eq_some_iff.1 read
    exact not_mem_of_exponent? read (mem_cutFraction (mem_dropWhile_isDigit letter))

/-- The words for infinities and for what is not a number are written
without the letter. -/
theorem not_mem_of_word? {value : Float} (read : word? text = some value) : 'x' ∉ text := by
  intro letter
  have lower : 'x' ∈ (String.ofList (text.map Char.toLower)).toList := by
    rw [String.toList_ofList]
    exact List.mem_map.2 ⟨'x', letter, rfl⟩
  rw [word?] at read
  split at read
  · next word =>
    rcases word with word | word <;>
      · rw [word] at lower
        exact absurd lower (by decide)
  · split at read
    · next word =>
      rw [word] at lower
      exact absurd lower (by decide)
    · cases read

/-- No number is written with the letter of the variable. -/
theorem not_mem_of_number? {value : Float} (read : number? text = some value) : 'x' ∉ text := by
  intro letter
  obtain ⟨size, read, -⟩ := Option.map_eq_some_iff.1 read
  rcases Option.or_eq_some_iff.1 (Option.orElse_eq_or ▸ read) with numeral | ⟨-, word⟩
  · exact not_mem_of_unsigned? numeral (mem_cutSign letter)
  · exact not_mem_of_word? word (mem_cutSign letter)

end Decimal

/-! ### Reading limits -/

/-- The text is a formula without the variable, and has a value, the
same at all points. -/
def IsConstant (text : String) (value : Float) : Prop :=
  ∃ (normal : Formula.Normal Float) (f : Callable Float),
    Formula.normalize text = .ok normal ∧ Callable.ofNormalText normal.text = .ok f ∧
      f.tree = normal.tree ∧ normal.tree.mentions variableName = false ∧
      ∀ x, f.eval x = .ok value

section Limits

variable {text : String} {value : Float}

/-- A constant value is found exactly for texts that are constants, and it is their
value.  The proof goes through two runs of the evaluation at different points. -/
theorem constantValue?_eq_some_iff : constantValue? text = some value ↔ IsConstant text value := by
  rw [constantValue?]
  cases read : Formula.normalize (K := Float) text with
  | error fault =>
    refine iff_of_false nofun ?_
    rintro ⟨normal, f, read', -⟩
    cases read.symm.trans read'
  | ok normal =>
    obtain ⟨f, called, -, same⟩ := Callable.exists_ofNormalText read
    dsimp only
    rw [called]
    dsimp only
    constructor
    · intro found
      split at found
      · cases found
      · next absent =>
        rw [Bool.not_eq_true] at absent
        refine ⟨normal, f, read, called, same, same ▸ absent, fun x => ?_⟩
        exact (Callable.eval_eq_ok_congr absent).1 (eq_ok_of_toOption found)
    · rintro ⟨normal', f', read', called', same', absent, everywhere⟩
      cases read.symm.trans read'
      cases called.symm.trans called'
      rw [same, absent, if_neg Bool.false_ne_true, Callable.eval?, everywhere]
      rfl

theorem IsConstant.isFinite (constant : IsConstant text value) : value.isFinite = true := by
  obtain ⟨normal, f, -, -, -, -, everywhere⟩ := constant
  exact (Callable.eval_eq_ok (everywhere 0.0)).2

theorem not_isConstant_of_error {fault : Formula.ParseFault}
    (refused : Formula.normalize (K := Float) text = .error fault) : ¬IsConstant text value := by
  rintro ⟨normal, f, read, -⟩
  cases refused.symm.trans read

section Trees

variable {normal : Formula.Normal Float} (read : Formula.normalize text = .ok normal)

include read

/-- What mentions the variable is no constant, whatever its values are. -/
theorem not_isConstant_of_mentions (occurs : normal.tree.mentions variableName = true) :
    ¬IsConstant text value := by
  rintro ⟨normal', f, read', -, -, absent, -⟩
  cases read.symm.trans read'
  cases occurs.symm.trans absent

/-- One point without a value is enough to refuse a text as a constant. -/
theorem not_isConstant_of_eval {f : Callable Float} {x : Float} {error : EvalError Float}
    (called : Callable.ofNormalText normal.text = .ok f) (fails : f.eval x = .error error) :
    ¬IsConstant text value := by
  rintro ⟨normal', f', read', called', -, -, everywhere⟩
  cases read.symm.trans read'
  cases called.symm.trans called'
  cases fails.symm.trans (everywhere x)

end Trees

/-! A text goes one of three ways. -/

variable {trimmed : List Char} (trims : Text.trim text.toList = trimmed)

include trims

theorem readLimit_of_number (read : Decimal.number? trimmed = some value) :
    readLimit text =
      if value.isNaN then .error (.notANumber (String.ofList trimmed))
      else if value.isInf then .error .notFinite
      else .ok value := by
  rw [readLimit, trims, read]
  rfl

/-- What reads as no number may be a constant, and is accepted with its value. -/
theorem readLimit_of_constant (none : Decimal.number? trimmed = none)
    (constant : IsConstant (String.ofList trimmed) value) : readLimit text = .ok value := by
  obtain ⟨number, bounded⟩ := Binary64.isFinite_iff.1 constant.isFinite
  rw [readLimit, trims, none, Option.orElse_none, constantValue?_eq_some_iff.2 constant]
  dsimp only
  rw [number, bounded, if_neg Bool.false_ne_true, if_neg Bool.false_ne_true]

/-- What is neither a number nor a constant is refused, quoted without the
blanks around it. -/
theorem readLimit_of_neither (none : Decimal.number? trimmed = none)
    (neither : ∀ value, ¬IsConstant (String.ofList trimmed) value) :
    readLimit text = .error (.notANumber (String.ofList trimmed)) := by
  have nothing : constantValue? (String.ofList trimmed) = Option.none :=
    Option.eq_none_iff_forall_ne_some.2 fun value found =>
      neither value (constantValue?_eq_some_iff.1 found)
  rw [readLimit, trims, none, Option.orElse_none, nothing]

/-- What reads as no number is accepted as a constant or refused for not
being a number. -/
theorem readLimit_of_no_number (none : Decimal.number? trimmed = none) :
    (∃ value, IsConstant (String.ofList trimmed) value ∧ readLimit text = .ok value) ∨
      readLimit text = .error (.notANumber (String.ofList trimmed)) := by
  by_cases constant : ∃ value, IsConstant (String.ofList trimmed) value
  · obtain ⟨value, constant⟩ := constant
    exact .inl ⟨value, constant, readLimit_of_constant trims none constant⟩
  · exact .inr (readLimit_of_neither trims none (not_exists.1 constant))

/-- A limit is accepted as a number or as a constant, and is finite either
way.  A number is preferred where both could be meant. -/
theorem readLimit_eq_ok_iff :
    readLimit text = .ok value ↔ value.isFinite = true ∧
      (Decimal.number? trimmed = some value ∨
        Decimal.number? trimmed = none ∧ IsConstant (String.ofList trimmed) value) := by
  cases read : Decimal.number? trimmed with
  | some literal =>
    rw [readLimit_of_number trims read, Option.some.injEq, or_iff_left (fun none => nomatch none.1),
      Binary64.isFinite_iff]
    constructor
    · intro accepted
      split at accepted
      · cases accepted
      · next number =>
        split at accepted
        · cases accepted
        · next bounded =>
          cases accepted
          exact ⟨⟨Bool.eq_false_of_not_eq_true number, Bool.eq_false_of_not_eq_true bounded⟩, rfl⟩
    · rintro ⟨⟨number, bounded⟩, rfl⟩
      rw [number, bounded, if_neg Bool.false_ne_true, if_neg Bool.false_ne_true]
  | none =>
    constructor
    · intro accepted
      rcases readLimit_of_no_number trims read with ⟨value', constant, other⟩ | refused
      · cases other.symm.trans accepted
        exact ⟨constant.isFinite, .inr ⟨rfl, constant⟩⟩
      · cases refused.symm.trans accepted
    · rintro ⟨-, literal | ⟨-, constant⟩⟩
      · cases literal
      · exact readLimit_of_constant trims read constant

/-- Only a number is refused for not being finite.  A constant without a
finite value is not a value to begin with. -/
theorem readLimit_eq_notFinite_iff :
    readLimit text = .error .notFinite ↔
      ∃ literal, Decimal.number? trimmed = some literal ∧ literal.isInf = true := by
  cases read : Decimal.number? trimmed with
  | some literal =>
    rw [readLimit_of_number trims read]
    constructor
    · intro refused
      split at refused
      · cases refused
      · split at refused
        · next infinite => exact ⟨literal, rfl, infinite⟩
        · cases refused
    · rintro ⟨_, ⟨⟩, infinite⟩
      rw [Binary64.isNaN_of_isInf infinite, infinite, if_neg Bool.false_ne_true, if_pos rfl]
  | none =>
    refine iff_of_false ?_ nofun
    intro infinite
    rcases readLimit_of_no_number trims read with ⟨value, -, accepted⟩ | refused
    · cases accepted.symm.trans infinite
    · cases refused.symm.trans infinite

end Limits

/-- A limit of integration is a finite constant.  Where the variable does not
occur, evaluation takes the same way at any two points, so it makes no
difference at which point a limit is evaluated.  What is accepted is finite: a
number, or a formula without the variable that has this value at all points.
A formula that mentions the variable is refused as no number, even where the
variable cancels, and so is a text other than a number that is no formula or
has no value somewhere.  Only a number that is infinite is refused for not
being finite. -/
theorem limit_is_finite_constant :
    (∀ {K : Type} [Scalar K] (e : Expr K) (c : Compiled K), e.compile = .ok c →
      e.mentions variableName = false → ∀ x y, c.evaluate x = c.evaluate y) ∧
    ∀ text : String,
      let trimmed := Text.trim text.toList
      let literal? := Decimal.number? trimmed
      let formula := String.ofList trimmed
      (∀ value, readLimit text = .ok value ↔ value.isFinite = true ∧
        (literal? = some value ∨ literal? = none ∧ IsConstant formula value)) ∧
      (∀ normal : Formula.Normal Float, Formula.normalize formula = .ok normal →
        normal.tree.mentions variableName = true →
          readLimit text = .error (.notANumber formula)) ∧
      (literal? = none →
        (∀ fault, Formula.normalize (K := Float) formula = .error fault →
          readLimit text = .error (.notANumber formula)) ∧
        ∀ (normal : Formula.Normal Float) (f : Callable Float),
          Formula.normalize formula = .ok normal → Callable.ofNormalText normal.text = .ok f →
            ∀ x error, f.eval x = .error error → readLimit text = .error (.notANumber formula)) ∧
      (readLimit text = .error .notFinite ↔
        ∃ literal, literal? = some literal ∧ literal.isInf = true) := by
  refine ⟨?_, ?_⟩
  · intro K _ e c compiles absent x y
    exact Expr.evaluate_congr compiles absent x y
  · intro text trimmed literal? formula
    refine ⟨?_, ?_, ?_, ?_⟩
    · intro value
      exact readLimit_eq_ok_iff rfl
    · intro normal read occurs
      cases literal : literal? with
      | none =>
        exact readLimit_of_neither rfl literal fun value => not_isConstant_of_mentions read occurs
      | some value =>
        have letter := mem_of_mentions read occurs
        rw [String.toList_ofList] at letter
        exact absurd letter (Decimal.not_mem_of_number? literal)
    · intro none
      constructor
      · intro fault refused
        exact readLimit_of_neither rfl none fun value => not_isConstant_of_error refused
      · intro normal f read called x error fails
        exact readLimit_of_neither rfl none fun value => not_isConstant_of_eval read called fails
    · exact readLimit_eq_notFinite_iff rfl

/-- Half of a constant between blanks, a number that is too large, a variable
that cancels, an unknown name and a quotient without a value. -/
theorem limit_is_finite_constant_of_half :
    (∃ value, readLimit " pi/2 " = .ok value ∧ value.isFinite = true ∧ IsConstant "pi/2" value) ∧
    readLimit "1e999" = .error .notFinite ∧
    readLimit "x-x" = .error (.notANumber "x-x") ∧
    readLimit "abc" = .error (.notANumber "abc") ∧
    readLimit "1/0" = .error (.notANumber "1/0") ∧
    (Compiled.div (.const (1.0 : Float)) (.const 0.0)).evaluate 2.0 =
      (Compiled.div (.const 1.0) (.const 0.0)).evaluate 3.0 := by
  obtain ⟨twoRuns, limits⟩ := limit_is_finite_constant
  refine ⟨?_, ?_, ?_, ?_, ?_, ?_⟩
  · have accepted : (readLimit " pi/2 ").isOk = true := by decide +kernel
    obtain ⟨value, read⟩ := exists_of_isOk accepted
    obtain ⟨finite, literal | ⟨-, constant⟩⟩ := ((limits " pi/2 ").1 value).1 read
    · have none : Decimal.number? (Text.trim " pi/2 ".toList) = none := by decide +kernel
      cases none.symm.trans literal
    · exact ⟨value, read, finite, constant⟩
  · have infinite : (Decimal.number? (Text.trim "1e999".toList)).map Float.isInf = some true := by
      decide +kernel
    exact (limits "1e999").2.2.2.2 (Option.map_eq_some_iff.1 infinite)
  · have read : ((Formula.normalize (K := Float) "x-x").toOption.map fun normal =>
        normal.tree.mentions variableName) = some true := by decide +kernel
    obtain ⟨normal, done, occurs⟩ := Option.map_eq_some_iff.1 read
    exact (limits "x-x").2.1 normal (eq_ok_of_toOption done) occurs
  · have refused : (Formula.normalize (K := Float) "abc").map Formula.Normal.text =
        .error (.unknownName "abc" 0) := by decide +kernel
    exact ((limits "abc").2.2.1 (by decide +kernel)).1 _ (map_eq_error refused)
  · have fails : ((Formula.normalize (K := Float) "1/0").toOption.bind fun normal =>
        (Callable.ofNormalText (K := Float) normal.text).toOption.map fun f =>
          (f.eval 1.0).isOk) = some false := by decide +kernel
    obtain ⟨normal, done, fails⟩ := Option.bind_eq_some_iff.1 fails
    obtain ⟨f, called, fails⟩ := Option.map_eq_some_iff.1 fails
    cases outcome : f.eval 1.0 with
    | ok value =>
      rw [outcome] at fails
      cases fails
    | error error =>
      exact ((limits "1/0").2.2.1 (by decide +kernel)).2 normal f (eq_ok_of_toOption done)
        (eq_ok_of_toOption called) 1.0 error outcome
  · exact twoRuns (.div (.const 1.0) (.const 0.0)) _ rfl rfl 2.0 3.0

end Fluxion
