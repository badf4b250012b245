import Fluxion.Proofs.Faults
import Fluxion.Proofs.Recognition

/-!
# Faults point into the text

The grammar reads lexemes that have been rewritten, and still its faults speak about the text the
user wrote.  A reader of the grammar blames a lexeme that it has been given (`Grounds`); the steps to
normal form make up no names but the qualified ones of functions and constants, which are never
unknown (`name_of_normalized`); and behind them a parenthesis follows every function (`Called`), so
the grammar has none to blame.  What is left are lexemes of the text, and these stand where their
positions say (`normalize_fault_located`).
-/

namespace Fluxion

open Formula (Token Lexeme Reader GrammarFault ParseFault)

/-! ### The grammar blames lexemes that it is given -/

/-- What a fault of the grammar says about lexemes: that the token or the name
it speaks of is among them, at its place. -/
def Grounded (lexemes : List Lexeme) : GrammarFault → Prop
  | .unexpectedCharacter _ _ => False
  | .unknownName name position =>
    ⟨.ident name, position⟩ ∈ lexemes ∧ ¬ Vocabulary.normal.Spells (.ident name)
  | .missingCall name position => (Elementary.ofQualifiedName? name).isSome = true ∧
    ∃ before after, lexemes = before ++ ⟨.ident name, position⟩ :: after ∧ ¬ Starts .opening after
  | _ => True

/-- What a fault says about lexemes holds with more of them in front. -/
theorem Grounded.append_left {lexemes : List Lexeme} {fault : GrammarFault}
    (h : Grounded lexemes fault) (front : List Lexeme) : Grounded (front ++ lexemes) fault := by
  cases fault with
  | unexpectedCharacter => exact h
  | unknownName name position => exact ⟨List.mem_append_right front h.1, h.2⟩
  | missingCall name position =>
      obtain ⟨known, before, after, rfl, alone⟩ := h
      exact ⟨known, front ++ before, after, (List.append_assoc _ _ _).symm, alone⟩
  | _ => trivial

/-- Meeting what no rule allows blames the first lexeme that is left, or the end. -/
theorem grounded_unexpected (lexemes rest : List Lexeme) :
    Grounded lexemes (Formula.unexpected rest) := by
  cases rest <;> trivial

section Grammar

variable {K : Type} [Scalar K] [Numeral K]

/-- A reader whose faults say something about the lexemes that it is given.
The property passes from operands to whatever is read with them. -/
def Grounds (reader : Reader K) : Prop :=
  ∀ lexemes fault, outcome (reader lexemes) = .error fault → Grounded lexemes fault

namespace Grounds

variable {levels : Nat} {s : Strength} {operand unary : Reader K}

/-- The steps of a chain blame what their operands blame.  The induction is on
the number of lexemes that are left. -/
theorem chainFrom (h : Grounds operand) (recognised : Recognises levels s.operand operand)
    (left : Expr K) {lexemes : List Lexeme} {fault : GrammarFault}
    (failed : outcome (Formula.chainFrom s.operation operand left lexemes) = .error fault) :
    Grounded lexemes fault := by
  induction length : lexemes.length using Nat.strongRecOn generalizing left lexemes with
  | _ n ih =>
    rcases lexemes with _ | ⟨⟨token, position⟩, after⟩
    · rw [outcome_chainFrom_of_head _ _ _ (by simp)] at failed
      cases failed
    · cases known : s.operation (K := K) token with
      | none =>
          rw [outcome_chainFrom_of_head _ _ _ (by simpa using known)] at failed
          cases failed
      | some combine =>
          rw [outcome_chainFrom_cons _ _ _ _ _ known] at failed
          rcases bind_eq_error failed with failed | ⟨⟨right, behind⟩, read, later⟩
          · exact (h _ _ failed).append_left [_]
          · obtain ⟨d, rfl, -⟩ := recognised _ _ _ read
            have shorter : behind.length < n := by
              rw [← length, List.length_cons, List.length_append]
              omega
            exact ((ih _ shorter _ later rfl).append_left d.lexemes).append_left [_]

theorem chain (h : Grounds operand) (recognised : Recognises levels s.operand operand) :
    Grounds (Formula.chain s.operation operand) := by
  intro lexemes fault failed
  rw [outcome_chain] at failed
  rcases bind_eq_error failed with failed | ⟨⟨first, behind⟩, read, later⟩
  · exact h _ _ failed
  · obtain ⟨d, rfl, -⟩ := recognised _ _ _ read
    exact (h.chainFrom recognised first later).append_left d.lexemes

theorem sumOf (h : Grounds unary) (recognised : Recognises levels .unary unary) :
    Grounds (Formula.sumOf unary) :=
  chain (s := .sum) (chain (s := .product) h recognised) (.chain (s := .product) recognised)

/-- A sum in parentheses blames what its operands blame, or the place of the
missing parenthesis. -/
theorem closedSum (h : Grounds unary) (recognised : Recognises levels .unary unary)
    {lexemes : List Lexeme} {fault : GrammarFault}
    (failed : outcome (Formula.closedSum unary lexemes) = .error fault) :
    Grounded lexemes fault := by
  rw [outcome_closedSum] at failed
  rcases bind_eq_error failed with failed | ⟨⟨tree, rest⟩, -, failed⟩
  · exact h.sumOf recognised _ _ failed
  · rcases rest with _ | ⟨⟨token, position⟩, after⟩
    · cases failed
      trivial
    · cases token with
      | closing => cases failed
      | _ =>
          cases failed
          trivial

omit [Scalar K] [Numeral K] in
/-- A name that is no leaf and no function is not in the vocabulary. -/
theorem not_spells {name : String} (noLeaf : Formula.leaf? (K := K) name = none)
    (unknown : Elementary.ofQualifiedName? name = none) :
    ¬ Vocabulary.normal.Spells (.ident name) := by
  rw [Formula.leaf?] at noLeaf
  split at noLeaf
  · cases noLeaf
  · next other =>
    rintro (same | known | known)
    · exact other same
    · obtain ⟨c, found⟩ := Option.isSome_iff_exists.1 known
      cases (Option.map_eq_none_iff.1 noLeaf).symm.trans found
    · obtain ⟨f, found⟩ := Option.isSome_iff_exists.1 (Option.isSome_map ▸ known)
      cases unknown.symm.trans found

/-- An atom blames a name that means nothing, a function that is not called,
or what its group blames. -/
theorem atom (h : Grounds unary) (recognised : Recognises levels .unary unary) :
    Grounds (Formula.atom unary) := by
  intro lexemes fault failed
  rcases lexemes with _ | ⟨⟨token, position⟩, rest⟩
  · cases failed
    trivial
  cases token with
  | number text => cases failed
  | opening =>
      rw [outcome_atom_opening] at failed
      exact (h.closedSum recognised failed).append_left [_]
  | ident name =>
      rw [outcome_atom_ident] at failed
      split at failed
      · cases failed
      · next noLeaf =>
        split at failed
        · next unknown =>
          cases failed
          exact ⟨List.mem_cons_self, not_spells noLeaf unknown⟩
        · next f known =>
          split at failed
          · next opened inner =>
            exact (h.closedSum recognised (map_eq_error failed)).append_left [_, _]
          · next alone =>
            cases failed
            refine ⟨Option.isSome_of_eq_some known, [], rest, rfl, fun opens => ?_⟩
            obtain ⟨opened, inner, rfl⟩ := opens.exists_cons
            exact alone opened inner rfl
  | _ =>
      cases failed
      trivial

/-- A power blames what its base or its exponent blames. -/
theorem power (h : Grounds unary) (recognised : Recognises levels .unary unary) :
    Grounds (Formula.power unary) := by
  intro lexemes fault failed
  rw [outcome_power] at failed
  rcases bind_eq_error failed with failed | ⟨⟨base, rest⟩, read, later⟩
  · exact h.atom recognised _ _ failed
  · obtain ⟨d, rfl, -⟩ := recognised.atom _ _ _ read
    rcases rest with _ | ⟨⟨token, position⟩, after⟩
    · cases later
    · cases token with
      | power => exact ((h _ _ (map_eq_error later)).append_left [_]).append_left d.lexemes
      | _ => cases later

/-- An operand with signs blames what stands behind the signs. -/
theorem signed (h : Grounds unary) (recognised : Recognises levels .unary unary) :
    Grounds (Formula.signed unary) := by
  intro lexemes fault failed
  rcases lexemes with _ | ⟨⟨token, position⟩, rest⟩
  · exact h.power recognised _ _ failed
  · cases token with
    | minus =>
        rw [outcome_signed_minus] at failed
        exact (h _ _ (map_eq_error failed)).append_left [_]
    | plus =>
        rw [outcome_signed_plus] at failed
        exact (h _ _ failed).append_left [_]
    | _ => exact h.power recognised _ _ failed

end Grounds

/-- Operands of every depth blame what they are given, by induction on the depth. -/
theorem grounds_unary (levels : Nat) : Grounds (Formula.unary (K := K) levels) := by
  induction levels with
  | zero =>
      intro lexemes fault failed
      cases failed
      trivial
  | succ levels ih => exact ih.signed (recognises_unary levels)

/-- A fault of the whole formula says something about its lexemes.  Their
places are those of the text, so the fault speaks of the text. -/
theorem grounded_of_parseLexemes {lexemes : List Lexeme} {fault : GrammarFault}
    (failed : Formula.parseLexemes (K := K) lexemes = .error fault) : Grounded lexemes fault := by
  rw [parseLexemes_eq_bind] at failed
  rcases bind_eq_error failed with failed | ⟨⟨tree, rest⟩, -, failed⟩
  · exact (grounds_unary _).sumOf (recognises_unary _) _ _ failed
  · cases rest with
    | nil => cases failed
    | cons lexeme rest =>
        cases failed
        exact grounded_unexpected lexemes (lexeme :: rest)

end Grammar

/-! ### Where names come from -/

section Names

variable {lexemes result : List Lexeme} {name : String} {position : Nat}

/-- A name behind the step that qualifies names has been there before, and is
no function; or it is the qualified name of one. -/
theorem Qualifies.name_cases (step : Qualifies lexemes result)
    (member : ⟨.ident name, position⟩ ∈ result) :
    (⟨.ident name, position⟩ ∈ lexemes ∧ Vocabulary.surface.function? name = none) ∨
      ∃ f : Elementary, name = f.qualifiedName := by
  induction step with
  | nil => cases member
  | keep lexeme other _ ih =>
      rcases List.mem_cons.1 member with rfl | member
      · exact .inl ⟨List.mem_cons_self, other name rfl⟩
      · exact (ih member).imp_left fun kept => ⟨List.mem_cons_of_mem _ kept.1, kept.2⟩
  | @direct _ f _ _ _ _ _ _ ih =>
      rcases List.mem_cons.1 member with same | member
      · cases same
        exact .inr ⟨f, rfl⟩
      · exact (ih member).imp_left fun kept => ⟨List.mem_cons_of_mem _ kept.1, kept.2⟩
  | @reciprocal _ f inside argument after result _ opened closed _ _ _ _ ihgroup ihafter =>
      simp only [List.mem_cons, List.mem_append, Lexeme.mk.injEq, reduceCtorEq, false_and,
        false_or] at member
      rcases member with ⟨same, -⟩ | member | member
      · cases same
        exact .inr ⟨f, rfl⟩
      · refine (ihgroup member).imp_left fun kept => ⟨?_, kept.2⟩
        have inside := kept.1
        simp only [List.mem_cons, List.mem_append] at inside ⊢
        tauto
      · refine (ihafter member).imp_left fun kept => ⟨?_, kept.2⟩
        simp only [List.mem_cons, List.mem_append]
        exact .inr (.inr (.inr (.inr kept.1)))

/-- What a group contains without its parentheses has been in it. -/
theorem mem_of_mem_ungrouped {lexeme : Lexeme} (h : lexeme ∈ Formula.ungrouped lexemes) :
    lexeme ∈ lexemes := by
  rcases ungrouped_cases lexemes with same | ⟨opened, closed, form, -⟩
  · rwa [same] at h
  · rw [form]
    exact List.mem_cons_of_mem _ (List.mem_append_left _ h)

/-- A name behind the step that writes powers of `e` as calls has been there
before, or is that of the exponential. -/
theorem Exponentiates.name_cases (step : Exponentiates lexemes result)
    (member : ⟨.ident name, position⟩ ∈ result) :
    ⟨.ident name, position⟩ ∈ lexemes ∨ name = Elementary.exp.qualifiedName := by
  induction step with
  | nil => cases member
  | keep lexeme _ _ ih =>
      rcases List.mem_cons.1 member with rfl | member
      · exact .inl List.mem_cons_self
      · exact (ih member).imp_left (List.mem_cons_of_mem _)
  | @power exponent operand after argument result _ _ cut _ _ ihoperand ihafter =>
      have form := Formula.eq_of_cutOperand cut
      simp only [List.mem_cons, List.mem_append, Lexeme.mk.injEq, reduceCtorEq, false_and,
        false_or] at member
      simp only [List.mem_cons, form, List.mem_append]
      rcases member with ⟨same, -⟩ | member | member
      · cases same
        exact .inr rfl
      · refine (ihoperand member).imp_left fun kept => ?_
        exact .inr (.inr (.inl (mem_of_mem_ungrouped kept)))
      · exact (ihafter member).imp_left fun kept => .inr (.inr (.inr kept))

theorem name_of_withProducts (member : ⟨.ident name, position⟩ ∈ Formula.withProducts lexemes) :
    ⟨.ident name, position⟩ ∈ lexemes := by
  induction lexemes with
  | nil => exact member
  | cons first rest ih =>
      rcases withProducts_cons_cases first rest with kept | ⟨second, others, -, -, joined⟩
      · rw [kept, List.mem_cons] at member
        exact List.mem_cons.2 (member.imp_right ih)
      · rw [joined] at member
        simp only [List.mem_cons, Lexeme.mk.injEq, reduceCtorEq, false_and, false_or] at member
        exact List.mem_cons.2 (member.imp_right ih)

theorem name_of_withPowers (member : ⟨.ident name, position⟩ ∈ Formula.withPowers lexemes) :
    ⟨.ident name, position⟩ ∈ lexemes := by
  obtain ⟨lexeme, member, same⟩ := List.mem_map.1 member
  split at same
  · cases same
  · rwa [same] at member

/-- A name that normal form does not know has been in the text, and user
notation does not know it either. -/
theorem name_of_normalized (done : Formula.normalized lexemes = .ok result)
    (member : ⟨.ident name, position⟩ ∈ result)
    (unknown : ¬ Vocabulary.normal.Spells (.ident name)) :
    ⟨.ident name, position⟩ ∈ lexemes ∧ ¬ Vocabulary.surface.Spells (.ident name) := by
  obtain ⟨qualified, exponentials, hqualified, hexponentials, rfl⟩ := normalized_eq_ok_iff.1 done
  have noFunction (f : Elementary) : name ≠ f.qualifiedName := by
    rintro rfl
    exact unknown (Vocabulary.spells_function (Vocabulary.function?_qualifiedName f))
  obtain ⟨⟨token, place⟩, before, same⟩ := List.mem_map.1 member
  obtain ⟨bare, rfl, rfl⟩ := token_qualifiedConstant_eq_ident (congrArg Lexeme.token same)
  obtain rfl : place = position := congrArg Lexeme.position same
  rcases Constant.qualify_cases bare with ⟨c, rfl, qualified⟩ | ⟨notBare, alike⟩
  · have known : Vocabulary.normal.constant? c.qualifiedName = some c := by
      cases c <;> decide
    rw [qualified] at unknown
    exact absurd (Vocabulary.spells_constant known) unknown
  rw [alike] at unknown noFunction ⊢
  rcases hexponentials.name_cases before with before | exponential
  · rcases hqualified.name_cases before with ⟨before, noSurface⟩ | ⟨f, same⟩
    · refine ⟨name_of_withPowers (name_of_withProducts before), ?_⟩
      rintro (same | known | known)
      · exact unknown (.inl same)
      · rw [Vocabulary.surface, Option.isSome_or, notBare] at known
        exact unknown (.inr (.inl known))
      · rw [noSurface] at known
        cases known
    · exact absurd same (noFunction f)
  · exact absurd exponential (noFunction .exp)

end Names

/-! ### Functions that are not called stand in the text -/

namespace Uncalled

variable {lexemes rest : List Lexeme} {lexeme : Lexeme} {name : String} {position : Nat}

/-- A name that is not called is the first lexeme, or one of the rest. -/
theorem cons_iff :
    Uncalled name position (lexeme :: rest) ↔
      (Formula.isCallable name = true ∧ lexeme = ⟨.ident name, position⟩ ∧ ¬ Starts .opening rest) ∨
        Uncalled name position rest := by
  constructor
  · rintro ⟨callable, before, after, form, alone⟩
    cases before with
    | nil =>
        cases form
        exact .inl ⟨callable, rfl, alone⟩
    | cons first before =>
        obtain ⟨rfl, rfl⟩ := List.cons.inj form
        exact .inr ⟨callable, before, after, rfl, alone⟩
  · rintro (⟨callable, rfl, alone⟩ | h)
    · exact ⟨callable, [], rest, rfl, alone⟩
    · exact h.cons lexeme

/-- Writing out products takes no call away: a name that is called keeps
its parenthesis. -/
theorem of_withProducts (h : Uncalled name position (Formula.withProducts lexemes)) :
    Uncalled name position lexemes := by
  induction lexemes with
  | nil => exact h
  | cons first rest ih =>
      rcases withProducts_cons_cases first rest with kept | ⟨second, others, rfl, product, joined⟩
      · rw [kept] at h
        rcases cons_iff.1 h with ⟨callable, rfl, alone⟩ | h
        · refine cons_iff.2 (.inl ⟨callable, rfl, fun opens => alone ?_⟩)
          obtain ⟨opened, inner, rfl⟩ := opens.exists_cons
          obtain ⟨behind, form⟩ := exists_withProducts_cons ⟨.opening, opened⟩ inner
          exact form ▸ starts_cons.2 rfl
        · exact (ih h).cons first
      · rw [joined] at h
        rcases cons_iff.1 h with ⟨callable, rfl, -⟩ | h
        · -- no product is written between the name of a function and a parenthesis
          refine cons_iff.2 (.inl ⟨callable, rfl, fun opens => ?_⟩)
          rw [starts_cons.1 opens, Formula.juxtaposed, callable] at product
          cases product
        · rcases cons_iff.1 h with ⟨-, same, -⟩ | h
          · cases same
          · exact (ih h).cons first

theorem of_withPowers (h : Uncalled name position (Formula.withPowers lexemes)) :
    Uncalled name position lexemes := by
  induction lexemes with
  | nil => exact h
  | cons first rest ih =>
      rw [Formula.withPowers, List.map_cons] at h
      rcases cons_iff.1 h with ⟨callable, same, alone⟩ | h
      · split at same
        · cases same
        · refine cons_iff.2 (.inl ⟨callable, same, fun opens => alone ?_⟩)
          obtain ⟨opened, inner, rfl⟩ := opens.exists_cons
          exact starts_cons.2 rfl
      · exact (ih h).cons first

end Uncalled

/-! ### Behind the steps functions are called -/

/-- Wherever the qualified name of a function stands, a parenthesis follows.
Behind the step that qualifies names this holds for good. -/
inductive Called : List Lexeme → Prop
  | nil : Called []
  | cons {lexeme : Lexeme} {rest : List Lexeme}
      (follows : ∀ f : Elementary, lexeme.token = .ident f.qualifiedName → Starts .opening rest)
      (h : Called rest) : Called (lexeme :: rest)

namespace Called

variable {lexemes first second rest result : List Lexeme} {lexeme : Lexeme}

/-- Behind the first lexeme everything is called as before. -/
theorem tail (h : Called (lexeme :: rest)) : Called rest := by
  cases h with
  | cons _ h => exact h

theorem symbol (noName : ∀ name, lexeme.token ≠ .ident name) (h : Called rest) :
    Called (lexeme :: rest) :=
  .cons (fun _ named => absurd named (noName _)) h

theorem append (hfirst : Called first) (hsecond : Called second) : Called (first ++ second) := by
  induction hfirst with
  | nil => exact hsecond
  | @cons lexeme rest follows _ ih =>
      refine .cons (fun f named => ?_) ih
      obtain ⟨opened, inner, rfl⟩ := (follows f named).exists_cons
      exact starts_cons.2 rfl

theorem drop (h : Called (first ++ second)) : Called second := by
  induction first with
  | nil => exact h
  | cons lexeme rest ih => exact ih h.tail

/-- Lexemes are called before anything but a parenthesis that they would need. -/
theorem take (h : Called (first ++ second)) (apart : ¬ Starts .opening second) :
    Called first := by
  induction first with
  | nil => exact .nil
  | cons lexeme rest ih =>
      cases h with
      | cons follows h =>
          refine .cons (fun f named => ?_) (ih h)
          have opens := follows f named
          cases rest with
          | nil => exact absurd opens apart
          | cons => exact opens

/-- A group is called by itself, up to its closing parenthesis. -/
theorem group {closed : Nat} (h : Called (lexeme :: (first ++ ⟨.closing, closed⟩ :: rest))) :
    Called (lexeme :: (first ++ [⟨.closing, closed⟩])) := by
  rw [← List.cons_append] at h ⊢
  exact (h.take (by simp)).append (.symbol (by simp) .nil)

theorem base {after : List Lexeme} (cut : Formula.cutAtom lexemes = .ok ⟨first, after⟩)
    (h : Called lexemes) : Called first := by
  rcases lexemes with _ | ⟨⟨token, position⟩, others⟩
  · cases cut
  cases token with
  | number text =>
      cases cut
      exact .symbol (by simp) .nil
  | opening =>
      cases found : Formula.cutGroup 0 others with
      | none => simp [Formula.cutAtom, found] at cut
      | some group =>
          obtain ⟨closed, closing, -, rfl⟩ := exists_of_cutGroup found
          simp only [Formula.cutAtom, found, closing] at cut
          cases cut
          exact h.group
  | ident name =>
      by_cases opens : Starts .opening others
      · obtain ⟨place, inner, rfl⟩ := opens.exists_cons
        cases found : Formula.cutGroup 0 inner with
        | none => simp [Formula.cutAtom, found] at cut
        | some group =>
            obtain ⟨closed, closing, -, rfl⟩ := exists_of_cutGroup found
            simp only [Formula.cutAtom, found, closing] at cut
            cases cut
            exact .cons (fun _ _ => starts_cons.2 rfl) h.tail.group
      · rw [cutAtom_ident name position opens] at cut
        cases cut
        rw [← List.singleton_append] at h
        exact h.take opens
  | _ => cases cut

theorem operand {after : List Lexeme} (cut : Formula.cutOperand lexemes = .ok ⟨first, after⟩)
    (h : Called lexemes) : Called first := by
  fun_induction Formula.cutOperand lexemes generalizing first after with
  | case1 position rest ih | case2 position rest ih =>
      obtain ⟨inner, found, same⟩ := map_eq_ok cut
      cases same
      exact .symbol (by simp) (ih found h.tail)
  | case3 => cases cut
  | case4 lexemes _ _ base position rest atom ih =>
      obtain ⟨inner, found, same⟩ := map_eq_ok cut
      cases same
      obtain ⟨rfl, -⟩ := Formula.eq_of_cutAtom atom
      have power : Called (⟨.power, position⟩ :: inner.lexemes) :=
        .symbol (by simp) (ih found h.drop.tail)
      rw [List.append_assoc]
      exact (h.base atom).append power
  | case5 lexemes _ _ operand _ atom =>
      cases cut
      exact h.base atom

theorem ungrouped (h : Called lexemes) : Called (Formula.ungrouped lexemes) := by
  rcases ungrouped_cases lexemes with same | ⟨opened, closed, form, -⟩
  · rwa [same]
  · rw [form] at h
    exact h.tail.take (by simp)

end Called

/-- Behind the step that qualifies names, every function is called. -/
theorem Qualifies.called {lexemes result : List Lexeme} (step : Qualifies lexemes result) :
    Called result := by
  induction step with
  | nil => exact .nil
  | keep lexeme other _ ih =>
      refine .cons (fun f named => ?_) ih
      cases (other _ named).symm.trans (Vocabulary.surface_function?_qualifiedName f)
  | direct _ _ _ h ih =>
      obtain ⟨behind, rfl, -⟩ := h.exists_rest_of_opening
      exact .cons (fun _ _ => starts_cons.2 rfl) ih
  | reciprocal _ _ _ _ _ hgroup _ ihgroup ihafter =>
      obtain ⟨behind, rfl, -⟩ := hgroup.exists_rest_of_opening
      refine .symbol (by simp) (.symbol (by simp) (.symbol (by simp) (.cons ?_ ?_)))
      · exact fun _ _ => starts_cons.2 rfl
      · exact ihgroup.append (.symbol (by simp) ihafter)

/-- Writing powers of `e` as calls keeps every function called. -/
theorem Exponentiates.called {lexemes result : List Lexeme} (step : Exponentiates lexemes result)
    (h : Called lexemes) : Called result := by
  induction step with
  | nil => exact .nil
  | keep lexeme _ step ih =>
      cases h with
      | cons follows h =>
          refine .cons (fun f named => ?_) (ih h)
          obtain ⟨opened, inner, rfl⟩ := (follows f named).exists_cons
          cases step with
          | keep => exact starts_cons.2 rfl
  | power _ _ cut _ _ ihoperand ihafter =>
      have exponent := h.tail.tail
      refine .cons (fun _ _ => starts_cons.2 rfl) (.symbol (by simp) ?_)
      refine (ihoperand (exponent.operand cut).ungrouped).append (.symbol (by simp) (ihafter ?_))
      rw [Formula.eq_of_cutOperand cut] at exponent
      exact exponent.drop

/-- Behind the steps the grammar finds no function that is not called.  Such a
fault can only come from the step that looks for it. -/
theorem not_missingCall_of_normalized {lexemes result : List Lexeme} {name : String}
    {position : Nat} (done : Formula.normalized lexemes = .ok result) :
    ¬ Grounded result (.missingCall name position) := by
  obtain ⟨qualified, exponentials, hqualified, hexponentials, rfl⟩ := normalized_eq_ok_iff.1 done
  have called := hexponentials.called hqualified.called
  rintro ⟨known, before, after, form, alone⟩
  obtain ⟨before', behind, rfl, -, same⟩ := List.map_eq_append_iff.1 form
  obtain ⟨lexeme, after', rfl, head, rfl⟩ := List.map_eq_cons_iff.1 same
  obtain ⟨bare, named, rfl⟩ := token_qualifiedConstant_eq_ident (congrArg Lexeme.token head)
  obtain ⟨f, found⟩ := Option.isSome_iff_exists.1 known
  have function : Vocabulary.normal.function? bare = some (.direct f) :=
    (Constant.function?_qualify bare).symm.trans (congrArg (Option.map _) found)
  obtain ⟨f', rfl, -⟩ := Vocabulary.exists_of_function?_normal function
  cases called.drop with
  | cons follows _ =>
      obtain ⟨opened, inner, rfl⟩ := (follows f' named).exists_cons
      exact alone (starts_cons.2 rfl)

/-! ### Faults of a text -/

/-- What a fault says about the text that was entered.  Each cause has a
reading of its own. -/
def Located (text : String) : ParseFault → Prop
  | .unexpectedCharacter c position => text.toList[position]? = some c
  | .unbalanced position => Formula.Unmatched text.toList position
  | .unknownName name position => ∃ lexemes, Formula.lexemes text = .ok lexemes ∧
    ⟨.ident name, position⟩ ∈ lexemes ∧ name.toList <+: text.toList.drop position ∧
    ¬ Vocabulary.surface.Spells (.ident name)
  | .missingCall name position => ∃ lexemes, Formula.lexemes text = .ok lexemes ∧
    Uncalled name position lexemes ∧ name.toList <+: text.toList.drop position
  | _ => True

section Reading

variable {K : Type} [Scalar K] [Numeral K] {text : String} {fault : ParseFault}

/-- A name among the lexemes of a text is written in the text at the position
of the lexeme. -/
theorem prefix_of_mem {lexemes : List Lexeme} {name : String} {position : Nat}
    (cut : Formula.lexemes text = .ok lexemes) (member : ⟨.ident name, position⟩ ∈ lexemes) :
    name.toList <+: text.toList.drop position :=
  (Formula.laid_of_lexemesFrom cut).inPlace.written _ member

/-- A fault of a text points at the place in the text that it speaks about: at
the character it names, the parenthesis without a partner, or the whole token
that stands there.  Each cause is traced back through the steps to the stage
that found it.  That works since the steps give what they add the place of
what it stems from. -/
theorem normalize_fault_located (failed : Formula.normalize (K := K) text = .error fault) :
    Located text fault := by
  cases refusedBy_of_normalize failed with
  | untouched _ same =>
      rw [same]
      trivial
  | characters h =>
      obtain ⟨front, c, rest, form, rfl, -⟩ := exists_of_checkCharacters h
      show text.toList[0 + front.length]? = some c
      rw [form, Nat.zero_add, List.getElem?_append_right (Nat.le_refl _), Nat.sub_self]
      rfl
  | parentheses h =>
      rcases Formula.checkParentheses_cases text.toList with ⟨passed, -⟩ |
        ⟨position, blamed, unmatched⟩ | ⟨position, full⟩
      · cases passed.symm.trans h
      · cases blamed.symm.trans h
        exact unmatched
      · cases full.symm.trans h
        trivial
  | lexer h same =>
      obtain ⟨front, c, rest, form, rfl, -⟩ := Formula.stuck_of_lexemesFrom h
      rw [same]
      show text.toList[0 + front.length]? = some c
      rw [form, Nat.zero_add, List.getElem?_append_right (Nat.le_refl _), Nat.sub_self]
      rfl
  | steps nested cut h =>
      rcases fault_of_normalized (nested.balanced cut) h with
        ⟨name, position, rfl, uncalled⟩ | exponent
      · have original := uncalled.of_withProducts.of_withPowers
        refine ⟨_, cut, original, prefix_of_mem cut ?_⟩
        obtain ⟨-, before, after, rfl, -⟩ := original
        exact List.mem_append_right before List.mem_cons_self
      · cases fault <;> trivial
  | @grammar lexemes _ inner nested cut done h same =>
      have grounded := grounded_of_parseLexemes h
      rw [same]
      cases inner with
      | unexpectedCharacter => exact grounded.elim
      | unknownName name position =>
          obtain ⟨member, unknown⟩ := name_of_normalized done grounded.1 grounded.2
          exact ⟨lexemes, cut, member, prefix_of_mem cut member, unknown⟩
      | missingCall => exact absurd grounded (not_missingCall_of_normalized done)
      | _ => trivial

end Reading

/-- The place of a name behind a blank that takes more than one byte, and that
of a function in front of a blank. -/
theorem normalize_fault_located_of_blanks :
    (Formula.normalize (K := SignedDigit) "2+\u00a0foo" = .error (.unknownName "foo" 3) ∧
      Located "2+\u00a0foo" (.unknownName "foo" 3)) ∧
    Formula.normalize (K := SignedDigit) "2sin x" = .error (.missingCall "sin" 1) ∧
      Located "2sin x" (.missingCall "sin" 1) := by
  have unknown : Formula.normalize (K := SignedDigit) "2+\u00a0foo" =
      .error (.unknownName "foo" 3) :=
    map_eq_error (f := Formula.Normal.text) (by decide +kernel)
  have uncalled : Formula.normalize (K := SignedDigit) "2sin x" =
      .error (.missingCall "sin" 1) :=
    map_eq_error (f := Formula.Normal.text) (by decide +kernel)
  exact ⟨⟨unknown, normalize_fault_located unknown⟩, uncalled, normalize_fault_located uncalled⟩

end Fluxion
