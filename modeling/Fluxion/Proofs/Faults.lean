import Fluxion.Proofs.Parentheses
import Fluxion.Proofs.SurfaceReading

/-!
# What the steps refuse

Where every group that opens is closed, the steps to normal form have few reasons to refuse lexemes:
a function is named and not called (`fault_of_withQualifiedNames`), or a power of `e` has no exponent
(`fault_of_withExponentials`).  Neither step loses a parenthesis, so none of them has a reason to
blame one (`fault_of_normalized`).
-/

namespace Fluxion

open Formula (Token Lexeme ParseFault)
open Parenthesis (openBehind ofLexemes)

/-! ### Functions that are not called -/

/-- The name of a function stands at a place, and no parenthesis follows it.
This is the one thing that qualifying names can refuse. -/
def Uncalled (name : String) (position : Nat) (lexemes : List Lexeme) : Prop :=
  Formula.isCallable name = true ∧
    ∃ before after, lexemes = before ++ ⟨.ident name, position⟩ :: after ∧ ¬ Starts .opening after

namespace Uncalled

variable {name : String} {position : Nat} {lexemes : List Lexeme}

/-- A name that is not called is not called behind other lexemes either. -/
theorem append_left (h : Uncalled name position lexemes) (front : List Lexeme) :
    Uncalled name position (front ++ lexemes) := by
  obtain ⟨callable, before, after, rfl, alone⟩ := h
  exact ⟨callable, front ++ before, after, (List.append_assoc _ _ _).symm, alone⟩

theorem cons (h : Uncalled name position lexemes) (first : Lexeme) :
    Uncalled name position (first :: lexemes) :=
  h.append_left [first]

/-- The end of a group parts the lexemes before it from those behind. -/
theorem append_right {closed : Nat} (h : Uncalled name position (lexemes ++ [⟨.closing, closed⟩]))
    (rest : List Lexeme) : Uncalled name position (lexemes ++ ⟨.closing, closed⟩ :: rest) := by
  obtain ⟨callable, before, after, form, alone⟩ := h
  rcases List.eq_nil_or_concat after with rfl | ⟨inner, last, rfl⟩
  · cases (List.append_inj_right' form rfl)
  · rw [List.concat_eq_append, ← List.cons_append, ← List.append_assoc] at form
    obtain ⟨rfl, same⟩ := List.append_inj' form rfl
    obtain rfl := (List.cons.inj same).1
    refine ⟨callable, before, inner ++ ⟨.closing, closed⟩ :: rest, by simp, ?_⟩
    cases inner with
    | nil => simp
    | cons first others => exact alone

end Uncalled

/-! ### The faults of each step -/

section Faults

variable {lexemes : List Lexeme} {fault : ParseFault}

/-- Qualifying names refuses nothing but functions that are not called.  In matching
parentheses every group has an end, so the search for one never fails. -/
theorem fault_of_withQualifiedNames (closes : GroupsClose lexemes)
    (failed : Formula.withQualifiedNames lexemes = .error fault) :
    ∃ name position, fault = .missingCall name position ∧ Uncalled name position lexemes := by
  fun_induction Formula.withQualifiedNames lexemes with
  | case1 => cases failed
  | case2 lexeme name named callable opened inner f known cut =>
      obtain ⟨group, found⟩ := closes [lexeme] opened inner rfl
      cases cut.symm.trans found
  | case3 lexeme name named callable opened inner f known group cut ihgroup ihafter =>
      obtain ⟨closed, closing, matched, rfl⟩ := exists_of_cutGroup cut
      rw [closing] at ihgroup failed
      rcases bind_eq_error failed with failed | ⟨argument, -, failed⟩
      · obtain ⟨name', position, rfl, uncalled⟩ :=
          ihgroup (matched.group opened closed).groupsClose failed
        rw [← List.cons_append] at uncalled
        exact ⟨name', position, rfl, (uncalled.append_right group.after).cons lexeme⟩
      · rcases bind_eq_error failed with failed | ⟨after, -, failed⟩
        · obtain ⟨name', position, rfl, uncalled⟩ :=
            ihafter (closes.of_cons.of_cons.after cut) failed
          refine ⟨name', position, rfl, .cons (.cons ?_ _) lexeme⟩
          exact .append_left (.cons uncalled _) group.inside
        · cases failed
  | case4 lexeme name named callable opened inner f known ih
  | case5 lexeme name named callable opened inner known ih =>
      rcases bind_eq_error failed with failed | ⟨after, -, failed⟩
      · obtain ⟨name', position, rfl, uncalled⟩ := ih closes.of_cons failed
        exact ⟨name', position, rfl, uncalled.cons lexeme⟩
      · cases failed
  | case6 lexeme =>
      have named := ‹lexeme.token = .ident _›
      have callable := ‹Formula.isCallable _ = true›
      have alone := ‹∀ opened inner, _ = (⟨.opening, opened⟩ : Lexeme) :: inner → False›
      cases failed
      refine ⟨_, lexeme.position, rfl, callable, [], _, by rw [← named]; rfl, fun opens => ?_⟩
      obtain ⟨opened, inner, rfl⟩ := opens.exists_cons
      exact alone opened inner rfl
  | case7 lexeme rest _ _ _ ih | case8 lexeme rest _ ih =>
      rcases bind_eq_error failed with failed | ⟨after, -, failed⟩
      · obtain ⟨name', position, rfl, uncalled⟩ := ih closes.of_cons failed
        exact ⟨name', position, rfl, uncalled.cons lexeme⟩
      · cases failed

/-- Faults of the exponent of a power of `e`: there is none, or it starts with
a token that starts no operand. -/
def OfExponent : ParseFault → Prop
  | .missingExponent | .badExponent _ _ => True
  | _ => False

/-- Cutting an atom fails only for lack of an exponent, as groups that are
open have an end. -/
theorem fault_of_cutAtom (closes : GroupsClose lexemes)
    (failed : Formula.cutAtom lexemes = .error fault) : OfExponent fault := by
  rcases lexemes with _ | ⟨⟨token, position⟩, rest⟩
  · cases failed
    trivial
  cases token with
  | opening =>
      obtain ⟨group, cut⟩ := closes [] position rest rfl
      simp [Formula.cutAtom, cut] at failed
  | ident name =>
      by_cases opens : Starts .opening rest
      · obtain ⟨opened, inner, rfl⟩ := opens.exists_cons
        obtain ⟨group, cut⟩ := closes [⟨.ident name, position⟩] opened inner rfl
        simp [Formula.cutAtom, cut] at failed
      · rw [cutAtom_ident name position opens] at failed
        cases failed
  | number text => cases failed
  | _ =>
      cases failed
      trivial

/-- Cutting an exponent fails only for lack of one, by induction along its
signs and powers. -/
theorem fault_of_cutOperand (closes : GroupsClose lexemes)
    (failed : Formula.cutOperand lexemes = .error fault) : OfExponent fault := by
  fun_induction Formula.cutOperand lexemes with
  | case1 position rest ih | case2 position rest ih => exact ih closes.of_cons (map_eq_error failed)
  | case3 lexemes _ _ fault' cut =>
      cases failed
      exact fault_of_cutAtom closes cut
  | case4 lexemes _ _ base position rest cut ih =>
      obtain ⟨rfl, -⟩ := Formula.eq_of_cutAtom cut
      exact ih closes.of_append.of_cons (map_eq_error failed)
  | case5 => cases failed

/-- Writing powers of `e` as calls refuses nothing but what is no exponent,
for the same reason. -/
theorem fault_of_withExponentials (closes : GroupsClose lexemes)
    (failed : Formula.withExponentials lexemes = .error fault) : OfExponent fault := by
  fun_induction Formula.withExponentials lexemes with
  | case1 position place exponent fault' cut =>
      cases failed
      exact fault_of_cutOperand closes.of_cons.of_cons cut
  | case2 position place exponent operand cut ihoperand ihafter =>
      have matched := balanced_ungrouped (cutOperand_append cut).1
      have closes' := closes.of_cons.of_cons
      rw [Formula.eq_of_cutOperand cut] at closes'
      rcases bind_eq_error failed with failed | ⟨argument, -, failed⟩
      · exact ihoperand matched.groupsClose failed
      · rcases bind_eq_error failed with failed | ⟨after, -, failed⟩
        · exact ihafter closes'.of_append failed
        · cases failed
  | case3 lexeme rest _ ih =>
      rcases bind_eq_error failed with failed | ⟨after, -, failed⟩
      · exact ih closes.of_cons failed
      · cases failed
  | case4 => cases failed

end Faults

/-! ### Parentheses stay matched -/

/-- Qualifying names leaves open what was open.  It adds parentheses in pairs only. -/
theorem Qualifies.openBehind_eq {lexemes result : List Lexeme} (h : Qualifies lexemes result)
    (depth : Nat) : openBehind depth (ofLexemes result) = openBehind depth (ofLexemes lexemes) := by
  induction h generalizing depth with
  | nil => rfl
  | keep lexeme _ _ ih =>
      rw [Parenthesis.ofLexemes_cons, Parenthesis.ofLexemes_cons, Parenthesis.openBehind_append,
        Parenthesis.openBehind_append]
      simp only [ih]
  | direct position opened _ _ ih => exact ih depth
  | @reciprocal name f inside argument after result position opened closed _ matched _ _ ihgroup
      ihafter =>
      have group := (ihgroup 0).trans (balanced_iff.1 (matched.group opened closed))
      show openBehind (depth + 1) (ofLexemes (argument ++ ⟨.closing, closed⟩ :: result)) =
        openBehind (depth + 1) (ofLexemes (inside ++ ⟨.closing, closed⟩ :: after))
      rw [Parenthesis.ofLexemes_append, Parenthesis.openBehind_append_of_match group,
        Parenthesis.ofLexemes_append,
        Parenthesis.openBehind_append_of_match (balanced_iff.1 matched)]
      exact ihafter depth

theorem Qualifies.balanced {lexemes result : List Lexeme} (h : Qualifies lexemes result)
    (matched : Balanced lexemes) : Balanced result := by
  rw [balanced_iff] at matched ⊢
  rw [h.openBehind_eq, matched]

/-- Writing powers as `**` leaves the parentheses alone. -/
theorem ofLexemes_withPowers (lexemes : List Lexeme) :
    ofLexemes (Formula.withPowers lexemes) = ofLexemes lexemes := by
  rw [ofLexemes, Formula.withPowers, List.filterMap_map]
  refine List.filterMap_congr fun lexeme _ => ?_
  by_cases caret : lexeme.token = .caret
  · simp [caret, Parenthesis.ofToken?]
  · simp [caret]

theorem ofLexemes_withProducts (lexemes : List Lexeme) :
    ofLexemes (Formula.withProducts lexemes) = ofLexemes lexemes := by
  induction lexemes with
  | nil => rfl
  | cons first rest ih =>
      rw [Parenthesis.ofLexemes_cons, ← ih]
      rcases withProducts_cons_cases first rest with kept | ⟨second, others, -, -, joined⟩
      · rw [kept, Parenthesis.ofLexemes_cons]
      · rw [joined, Parenthesis.ofLexemes_cons]
        rfl

theorem Balanced.withProducts {lexemes : List Lexeme} (matched : Balanced lexemes) :
    Balanced (Formula.withProducts (Formula.withPowers lexemes)) := by
  rwa [balanced_iff, ofLexemes_withProducts, ofLexemes_withPowers, ← balanced_iff]

/-- The steps refuse functions that are not called and what is no exponent,
and nothing else. -/
theorem fault_of_normalized {lexemes : List Lexeme} {fault : ParseFault} (matched : Balanced lexemes)
    (failed : Formula.normalized lexemes = .error fault) :
    (∃ name position, fault = .missingCall name position ∧
        Uncalled name position (Formula.withProducts (Formula.withPowers lexemes))) ∨
      OfExponent fault := by
  rcases bind_eq_error failed with failed | ⟨qualified, done, failed⟩
  · exact .inl (fault_of_withQualifiedNames matched.withProducts.groupsClose failed)
  · have behind := (qualifies_of_withQualifiedNames done).balanced matched.withProducts
    rcases bind_eq_error failed with failed | ⟨exponentials, -, failed⟩
    · exact .inr (fault_of_withExponentials behind.groupsClose failed)
    · cases failed

/-! ### Where a text is refused -/

/-- The check of characters blames the first one that user notation does not have. -/
theorem exists_of_checkCharacters {place : Nat} {text : List Char} {fault : ParseFault}
    (failed : Formula.checkCharacters place text = .error fault) :
    ∃ front c rest, text = front ++ c :: rest ∧
      fault = .unexpectedCharacter c (place + front.length) ∧ Formula.isAllowed c = false := by
  fun_induction Formula.checkCharacters place text with
  | case1 => cases failed
  | case2 place c rest allowed ih =>
      obtain ⟨front, d, after, rfl, rfl, unknown⟩ := ih failed
      refine ⟨c :: front, d, after, rfl, ?_, unknown⟩
      rw [List.length_cons, Nat.add_assoc, Nat.add_comm 1]
  | case3 place c rest unknown =>
      cases failed
      exact ⟨[], c, rest, rfl, rfl, Bool.eq_false_iff.2 unknown⟩

section Reading

variable {K : Type} [Scalar K] [Numeral K] {text : String} {fault : ParseFault}

/-- The stages that can refuse a text, in the order in which they look at it. -/
inductive RefusedBy (K : Type) [Scalar K] [Numeral K] (text : String) (fault : ParseFault) : Prop
  | untouched (h : Formula.isUntouched text = true) (same : fault = .empty)
  | characters (h : Formula.checkCharacters 0 text.toList = .error fault)
  | parentheses (h : Formula.checkParentheses [] 0 text.toList = .error fault)
  | lexer {inner : Formula.GrammarFault} (h : Formula.lexemes text = .error inner)
      (same : fault = .ofGrammar inner)
  | steps {lexemes : List Lexeme} (nested : Formula.Nested text.toList)
      (cut : Formula.lexemes text = .ok lexemes) (h : Formula.normalized lexemes = .error fault)
  | grammar {lexemes result : List Lexeme} {inner : Formula.GrammarFault}
      (nested : Formula.Nested text.toList) (cut : Formula.lexemes text = .ok lexemes)
      (done : Formula.normalized lexemes = .ok result)
      (h : Formula.parseLexemes (K := K) result = .error inner) (same : fault = .ofGrammar inner)

/-- A text whose parentheses do not match is refused for the place that the
check blames. -/
theorem normalize_of_unbalanced {position : Nat} (touched : Formula.isUntouched text = false)
    (characters : Formula.checkCharacters 0 text.toList = .ok ())
    (failed : Formula.checkParentheses [] 0 text.toList = .error (.unbalanced position)) :
    Formula.normalize (K := K) text = .error (.unbalanced position) := by
  rw [Formula.normalize, Formula.normalLexemes, touched, characters, failed]
  rfl

/-- A text that is refused is refused by one of the stages, with the
fault of that stage. -/
theorem refusedBy_of_normalize (failed : Formula.normalize (K := K) text = .error fault) :
    RefusedBy K text fault := by
  cases touched : Formula.isUntouched text with
  | true =>
      rw [Formula.normalize, Formula.normalLexemes, touched] at failed
      cases failed
      exact .untouched touched rfl
  | false =>
      cases characters : Formula.checkCharacters 0 text.toList with
      | error fault' =>
          rw [Formula.normalize, Formula.normalLexemes, touched, characters] at failed
          cases failed
          exact .characters characters
      | ok _ =>
          rcases Formula.checkParentheses_cases text.toList with ⟨parentheses, nested⟩ |
            ⟨position, parentheses, -⟩ | ⟨position, parentheses⟩
          · cases cut : Formula.lexemes text with
            | error inner =>
                rw [Formula.normalize, Formula.normalLexemes, touched, characters, parentheses,
                  cut] at failed
                cases failed
                exact .lexer cut rfl
            | ok lexemes =>
                rw [normalize_eq touched characters parentheses cut] at failed
                rcases bind_eq_error failed with failed | ⟨result, done, failed⟩
                · exact .steps nested cut failed
                · obtain ⟨inner, failed, same⟩ := mapError_eq_error (map_eq_error failed)
                  exact .grammar nested cut done failed same.symm
          all_goals
            rw [Formula.normalize, Formula.normalLexemes, touched, characters, parentheses] at failed
            cases failed
            exact .parentheses parentheses

end Reading

end Fluxion
