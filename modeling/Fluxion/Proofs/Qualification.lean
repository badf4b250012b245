import Fluxion.Proofs.Balance
import Fluxion.Proofs.Outcome

/-!
# Names are qualified

User notation has further spellings of the functions, and names for reciprocals; behind the step
that qualifies names there is one spelling of each function.  What the step does is a relation of
lexemes (`Qualifies`), with no faults in it: it is all that the step can do
(`withQualifiedNames_eq_ok_iff`).

The step keeps what is derived.  A derivation of user notation is written with qualified names as a
derivation with the same tree (`Derivation.qualified`), and whatever can be read behind the step has
been a derivation before (`Derivation.exists_of_qualifies`).  There the names of reciprocals have to
be found again: their place has been taken by a group that is longer than the call it comes from.
-/

namespace Fluxion

open Formula (Token Lexeme SurfaceFunction)

/-! ### Vocabularies -/

namespace Vocabulary

theorem constant?_eq_none_of_surfaceFunction? {name : String}
    (known : (Formula.surfaceFunction? name).isSome = true) :
    (Constant.ofName? name).or (Constant.ofQualifiedName? name) = none := by
  unfold Formula.surfaceFunction? at known
  split at known
  · next f found =>
    rw [eq_of_find?_spelling found]
    cases f <;> decide
  · split at known <;> first | decide | cases known

/-- The names of user notation: bare and other spellings, and those of normal
form.  Users may mix them. -/
def surface : Vocabulary where
  function? name :=
    (Formula.surfaceFunction? name).or ((Elementary.ofQualifiedName? name).map .direct)
  constant? name := (Constant.ofName? name).or (Constant.ofQualifiedName? name)
  isExponential name := name == "e"
  variable_apart := by decide
  function_apart name known := by
    rw [Option.isSome_or, Bool.or_eq_true, Option.isSome_map] at known
    rcases known with known | known
    · exact constant?_eq_none_of_surfaceFunction? known
    · obtain ⟨f, found⟩ := Option.isSome_iff_exists.1 known
      rw [eq_of_find?_spelling found]
      cases f <;> decide

/-- The names behind the step that qualifies functions: the constants
are still bare. -/
def qualified : Vocabulary where
  function? := normal.function?
  constant? := surface.constant?
  isExponential := surface.isExponential
  variable_apart := by decide
  function_apart name known := by
    obtain ⟨f, found⟩ := Option.isSome_iff_exists.1 (Option.isSome_map ▸ known)
    rw [eq_of_find?_spelling found]
    cases f <;> decide

/-- Normal form knows every qualified function, for itself. -/
theorem function?_qualifiedName (f : Elementary) :
    normal.function? f.qualifiedName = some (.direct f) := by
  cases f <;> decide

theorem surface_function?_qualifiedName (f : Elementary) :
    surface.function? f.qualifiedName = some (.direct f) := by
  cases f <;> decide

theorem exists_of_function?_normal {name : String} {g : SurfaceFunction}
    (known : normal.function? name = some g) :
    ∃ f : Elementary, name = f.qualifiedName ∧ g = .direct f := by
  obtain ⟨f, found, rfl⟩ := Option.map_eq_some_iff.1 known
  exact ⟨f, eq_of_find?_spelling found, rfl⟩

/-- The names that can be called are those that user notation has a function for. -/
theorem isCallable_eq (name : String) :
    Formula.isCallable name = (surface.function? name).isSome := by
  rw [Formula.isCallable, surface, Option.isSome_or, Option.isSome_map]

end Vocabulary

/-! ### The step as a relation -/

/-- What qualifying names makes of lexemes.  The step is a recursion on
lengths; as a relation it is open to induction. -/
inductive Qualifies : List Lexeme → List Lexeme → Prop
  | nil : Qualifies [] []
  | keep {rest result : List Lexeme} (lexeme : Lexeme)
      (other : ∀ name, lexeme.token = .ident name → Vocabulary.surface.function? name = none)
      (h : Qualifies rest result) : Qualifies (lexeme :: rest) (lexeme :: result)
  | direct {name : String} {f : Elementary} {inner result : List Lexeme} (position opened : Nat)
      (known : Vocabulary.surface.function? name = some (.direct f))
      (h : Qualifies (⟨.opening, opened⟩ :: inner) result) :
      Qualifies (⟨.ident name, position⟩ :: ⟨.opening, opened⟩ :: inner)
        (⟨.ident f.qualifiedName, position⟩ :: result)
  | reciprocal {name : String} {f : Elementary} {inside argument after result : List Lexeme}
      (position opened closed : Nat)
      (known : Vocabulary.surface.function? name = some (.reciprocal f)) (matched : Balanced inside)
      (hgroup : Qualifies (⟨.opening, opened⟩ :: (inside ++ [⟨.closing, closed⟩])) argument)
      (hafter : Qualifies after result) :
      Qualifies
        (⟨.ident name, position⟩ :: ⟨.opening, opened⟩ :: (inside ++ ⟨.closing, closed⟩ :: after))
        (⟨.opening, position⟩ :: ⟨.number "1", position⟩ :: ⟨.slash, position⟩
          :: ⟨.ident f.qualifiedName, position⟩ :: (argument ++ ⟨.closing, closed⟩ :: result))

section Step

variable {lexemes result : List Lexeme}

/-- What the step does with the first lexeme: it keeps what is no name of a function,
qualifies the name of a function that is called, and writes out a reciprocal. -/
theorem withQualifiedNames_cons_cases {token : Token} {position : Nat} {rest : List Lexeme}
    (done : Formula.withQualifiedNames (⟨token, position⟩ :: rest) = .ok result) :
    (∃ after, (∀ name, token = .ident name → Vocabulary.surface.function? name = none) ∧
        Formula.withQualifiedNames rest = .ok after ∧ result = ⟨token, position⟩ :: after) ∨
      (∃ (name : String) (f : Elementary) (opened : Nat) (inner after : List Lexeme),
        token = .ident name ∧ Vocabulary.surface.function? name = some (.direct f) ∧
          rest = ⟨.opening, opened⟩ :: inner ∧ Formula.withQualifiedNames rest = .ok after ∧
          result = ⟨.ident f.qualifiedName, position⟩ :: after) ∨
      ∃ (name : String) (f : Elementary) (opened closed : Nat)
          (inside behind argument after : List Lexeme),
        token = .ident name ∧ Vocabulary.surface.function? name = some (.reciprocal f) ∧
          Balanced inside ∧ rest = ⟨.opening, opened⟩ :: (inside ++ ⟨.closing, closed⟩ :: behind) ∧
          Formula.withQualifiedNames (⟨.opening, opened⟩ :: (inside ++ [⟨.closing, closed⟩])) =
            .ok argument ∧
          Formula.withQualifiedNames behind = .ok after ∧
          result = ⟨.opening, position⟩ :: ⟨.number "1", position⟩ :: ⟨.slash, position⟩
            :: ⟨.ident f.qualifiedName, position⟩
            :: (argument ++ ⟨.closing, closed⟩ :: after) := by
  rw [Formula.withQualifiedNames] at done
  dsimp only at done
  split at done
  · next name =>
    split at done
    · next callable =>
      split at done
      · next opened inner =>
        split at done
        · next f known =>
          split at done
          · cases done
          · next group cut =>
            obtain ⟨argument, doneGroup, done⟩ := bind_eq_ok done
            obtain ⟨after, doneAfter, done⟩ := bind_eq_ok done
            obtain ⟨closed, closing, matched, rfl⟩ := exists_of_cutGroup cut
            rw [closing] at doneGroup done
            cases done
            exact .inr (.inr ⟨name, f, opened, closed, group.inside, group.after, argument, after,
              rfl, Option.or_eq_some_iff.2 (.inl known), matched, rfl, doneGroup, doneAfter, rfl⟩)
        · next f known =>
          obtain ⟨after, doneAfter, done⟩ := bind_eq_ok done
          cases done
          exact .inr (.inl ⟨name, f, opened, inner, after, rfl,
            Option.or_eq_some_iff.2 (.inl known), rfl, doneAfter, rfl⟩)
        · next unknown =>
          -- the name is qualified, and is written as it is
          obtain ⟨after, doneAfter, done⟩ := bind_eq_ok done
          cases done
          rw [Formula.isCallable, unknown, Option.isSome_none, Bool.false_or] at callable
          obtain ⟨f, found⟩ := Option.isSome_iff_exists.1 callable
          refine .inr (.inl ⟨name, f, opened, inner, after, rfl, ?_, rfl, doneAfter, ?_⟩)
          · exact Option.or_eq_some_iff.2
              (.inr ⟨unknown, Option.map_eq_some_iff.2 ⟨f, found, rfl⟩⟩)
          · rw [← eq_of_find?_spelling found]
      · cases done
    · next other =>
      obtain ⟨after, doneAfter, done⟩ := bind_eq_ok done
      cases done
      refine .inl ⟨after, ?_, doneAfter, rfl⟩
      rintro _ ⟨⟩
      rwa [Vocabulary.isCallable_eq, Bool.not_eq_true, Option.isSome_eq_false_iff,
        Option.isNone_iff_eq_none] at other
  · next other =>
    obtain ⟨after, doneAfter, done⟩ := bind_eq_ok done
    cases done
    exact .inl ⟨after, fun name same => (other name same).elim, doneAfter, rfl⟩

/-- Where the step succeeds, the relation holds.  The induction is on the
number of lexemes, as a group is passed over at once. -/
theorem qualifies_of_withQualifiedNames
    (done : Formula.withQualifiedNames lexemes = .ok result) : Qualifies lexemes result := by
  induction length : lexemes.length using Nat.strongRecOn generalizing lexemes result with
  | ind n ih =>
    rcases lexemes with _ | ⟨⟨token, position⟩, rest⟩
    · rw [Formula.withQualifiedNames] at done
      cases done
      exact .nil
    · rw [List.length_cons] at length
      rcases withQualifiedNames_cons_cases done with ⟨after, other, doneRest, rfl⟩ |
        ⟨name, f, opened, inner, after, rfl, known, rfl, doneRest, rfl⟩ |
        ⟨name, f, opened, closed, inside, behind, argument, after, rfl, known, matched, rfl,
          doneGroup, doneBehind, rfl⟩
      · exact .keep _ other (ih _ (by omega) doneRest rfl)
      · exact .direct position opened known (ih _ (by omega) doneRest rfl)
      · simp only [List.length_cons, List.length_append] at length
        refine .reciprocal position opened closed known matched (ih _ ?_ doneGroup rfl)
          (ih _ ?_ doneBehind rfl)
        · simp only [List.length_cons, List.length_append, List.length_nil]
          omega
        · omega

/-- Where the relation holds, the step succeeds with its result. -/
theorem withQualifiedNames_eq (h : Qualifies lexemes result) :
    Formula.withQualifiedNames lexemes = .ok result := by
  induction h with
  | nil => rw [Formula.withQualifiedNames]
  | keep lexeme other _ ih =>
      obtain ⟨token, position⟩ := lexeme
      rw [Formula.withQualifiedNames, ih]
      cases token with
      | ident name =>
          have plain : Formula.isCallable name = false := by
            rw [Vocabulary.isCallable_eq, other name rfl]
            rfl
          simp [plain]
      | _ => rfl
  | @direct name f inner result position opened known _ ih =>
      have callable : Formula.isCallable name = true := by
        rw [Vocabulary.isCallable_eq, known]
        rfl
      rw [Formula.withQualifiedNames]
      rcases Option.or_eq_some_iff.1 known with bare | ⟨unknown, qualified⟩
      · simp only [callable, bare, ih]
        rfl
      · obtain ⟨f', found, same⟩ := Option.map_eq_some_iff.1 qualified
        cases same
        simp only [callable, unknown, ih, ← eq_of_find?_spelling found]
        rfl
  | @reciprocal name f inside argument after result position opened closed known matched _ _
      ihgroup ihafter =>
      have callable : Formula.isCallable name = true := by
        rw [Vocabulary.isCallable_eq, known]
        rfl
      have bare : Formula.surfaceFunction? name = some (.reciprocal f) := by
        rcases Option.or_eq_some_iff.1 known with bare | ⟨unknown, qualified⟩
        · exact bare
        · obtain ⟨f', found, same⟩ := Option.map_eq_some_iff.1 qualified
          cases same
      have cut := matched.cutGroup_eq closed after
      rw [Formula.withQualifiedNames]
      simp only [callable, bare, if_true]
      split
      · next failed => simp [cut] at failed
      · next group found =>
        rw [cut] at found
        cases found
        simp only [ihgroup, ihafter]
        rfl

/-- The relation is what the step does. -/
theorem withQualifiedNames_eq_ok_iff :
    Formula.withQualifiedNames lexemes = .ok result ↔ Qualifies lexemes result :=
  ⟨qualifies_of_withQualifiedNames, withQualifiedNames_eq⟩

end Step

namespace Qualifies

variable {first second left right lexemes result : List Lexeme} {token : Token} {position : Nat}

theorem append (hfirst : Qualifies first left) (hsecond : Qualifies second right) :
    Qualifies (first ++ second) (left ++ right) := by
  induction hfirst with
  | nil => exact hsecond
  | keep lexeme other _ ih => exact .keep lexeme other ih
  | direct position opened known _ ih => exact .direct position opened known ih
  | reciprocal position opened closed known matched hgroup _ _ ih =>
      have step := Qualifies.reciprocal position opened closed known matched hgroup ih
      simpa only [List.append_assoc, List.cons_append] using step

/-- Lexemes that are no names and open no group stem from themselves. -/
theorem exists_rest (h : Qualifies lexemes (⟨token, position⟩ :: result))
    (noName : ∀ name, token ≠ .ident name) (noOpening : token ≠ .opening) :
    ∃ rest, lexemes = ⟨token, position⟩ :: rest ∧ Qualifies rest result := by
  cases h with
  | keep _ _ h => exact ⟨_, rfl, h⟩
  | direct => exact absurd rfl (noName _)
  | reciprocal => exact absurd rfl noOpening

/-- A name stems from itself, or from a name of the function that it is the
qualified name of. -/
theorem ident_cases {name : String} (h : Qualifies lexemes (⟨.ident name, position⟩ :: result)) :
    (∃ rest, lexemes = ⟨.ident name, position⟩ :: rest ∧
        Vocabulary.surface.function? name = none ∧ Qualifies rest result) ∨
      ∃ (f : Elementary) (bare : String) (opened : Nat) (inner : List Lexeme),
        name = f.qualifiedName ∧ Vocabulary.surface.function? bare = some (.direct f) ∧
          lexemes = ⟨.ident bare, position⟩ :: ⟨.opening, opened⟩ :: inner ∧
          Qualifies (⟨.opening, opened⟩ :: inner) result := by
  cases h with
  | keep _ other h => exact .inl ⟨_, rfl, other name rfl, h⟩
  | direct _ opened known h => exact .inr ⟨_, _, opened, _, rfl, known, rfl, h⟩

/-- A parenthesis is kept, and what follows is qualified. -/
theorem exists_rest_of_opening {rest : List Lexeme}
    (h : Qualifies (⟨.opening, position⟩ :: rest) result) :
    ∃ result', result = ⟨.opening, position⟩ :: result' ∧ Qualifies rest result' := by
  cases h with
  | keep _ _ h => exact ⟨_, rfl, h⟩

/-- A parenthesis stems from itself, or from the name of a reciprocal. -/
theorem opening_cases (h : Qualifies lexemes (⟨.opening, position⟩ :: result)) :
    (∃ rest, lexemes = ⟨.opening, position⟩ :: rest ∧ Qualifies rest result) ∨
      ∃ (f : Elementary) (name : String) (opened closed : Nat)
          (inside argument after result' : List Lexeme),
        Vocabulary.surface.function? name = some (.reciprocal f) ∧
          lexemes = ⟨.ident name, position⟩ :: ⟨.opening, opened⟩
            :: (inside ++ ⟨.closing, closed⟩ :: after) ∧
          result = ⟨.number "1", position⟩ :: ⟨.slash, position⟩
            :: ⟨.ident f.qualifiedName, position⟩ :: (argument ++ ⟨.closing, closed⟩ :: result') ∧
          Balanced inside ∧
          Qualifies (⟨.opening, opened⟩ :: (inside ++ [⟨.closing, closed⟩])) argument ∧
          Qualifies after result' := by
  cases h with
  | keep _ _ h => exact .inl ⟨_, rfl, h⟩
  | reciprocal _ opened closed known matched hgroup hafter =>
      exact .inr
        ⟨_, _, opened, closed, _, _, _, _, known, rfl, rfl, matched, hgroup, hafter⟩

end Qualifies

/-! ### Names of functions are called -/

/-- Wherever the name of a function stands in the lexemes, its argument follows.
Neither qualifying names nor multiplying neighbours can then go wrong. -/
def CallsOnly (v : Vocabulary) (name : String) (lexemes : List Lexeme) : Prop :=
  ∀ before position after, lexemes = before ++ ⟨.ident name, position⟩ :: after →
    ∃ (opened closed : Nat) (argument : Derivation v .sum) (behind : List Lexeme),
      after = ⟨.opening, opened⟩ :: (argument.lexemes ++ ⟨.closing, closed⟩ :: behind)

namespace CallsOnly

variable {v : Vocabulary} {name : String} {first second : List Lexeme}

/-- A name that is only called in both parts is only called in the whole. -/
theorem append (hfirst : CallsOnly v name first) (hsecond : CallsOnly v name second) :
    CallsOnly v name (first ++ second) := by
  intro before position after same
  rcases List.append_eq_append_iff.1 same with ⟨before', -, same⟩ | ⟨middle, left, right⟩
  · exact hsecond before' position after same
  · cases middle with
    | nil => exact hsecond [] position after right.symm
    | cons lexeme middle =>
        obtain ⟨rfl, rfl⟩ := List.cons.inj right
        obtain ⟨opened, closed, argument, behind, rfl⟩ := hfirst before position middle left
        refine ⟨opened, closed, argument, behind ++ second, ?_⟩
        rw [List.append_eq, List.cons_append, List.append_assoc, List.cons_append]

theorem single {lexeme : Lexeme} (other : lexeme.token ≠ .ident name) :
    CallsOnly v name [lexeme] := by
  intro before position after same
  rcases List.singleton_eq_append_iff.1 same with ⟨-, same⟩ | ⟨-, same⟩
  · cases same
    exact absurd rfl other
  · cases same

theorem cons {lexeme : Lexeme} (other : lexeme.token ≠ .ident name)
    (h : CallsOnly v name second) : CallsOnly v name (lexeme :: second) :=
  (single other).append h

end CallsOnly

namespace Operator

variable {s : Strength}

theorem token_ne_ident (operator : Operator s) (name : String) : operator.token ≠ .ident name := by
  cases operator <;> simp [token]

end Operator

namespace Derivation

variable {v : Vocabulary} {r : Rule}

/-- In a derivation the name of a function is only called, never left alone. -/
theorem callsOnly (d : Derivation v r) {name : String} {f : SurfaceFunction}
    (known : v.function? name = some f) : CallsOnly v name d.lexemes := by
  induction d with
  | number => exact .single (by simp)
  | «variable» position =>
      refine .single fun same => ?_
      exact Vocabulary.ne_variableName_of_function known (Token.ident.inj same).symm
  | constant name' position known' =>
      refine .single fun same => ?_
      exact Vocabulary.constant_ne_function known' known (Token.ident.inj same)
  | call name' position opened closed known' argument ih =>
      have group :
          CallsOnly v name (⟨.opening, opened⟩ :: (argument.lexemes ++ [⟨.closing, closed⟩])) :=
        .cons (by simp) (ih.append (.single (by simp)))
      intro before place after same
      cases before with
      | nil =>
          cases same
          exact ⟨opened, closed, argument, [], rfl⟩
      | cons lexeme before => exact group before place after (List.cons.inj same).2
  | group opened closed inside ih => exact .cons (by simp) (ih.append (.single (by simp)))
  | unraised _ ih | unsigned _ ih | single _ ih => exact ih
  | raised base position exponent ihbase ihexponent =>
      exact ihbase.append (.cons (by simp) ihexponent)
  | signed sign position operand ih => exact .cons (sign.token_ne_ident name) ih
  | extended left operator position right ihleft ihright =>
      exact ihleft.append (.cons (operator.token_ne_ident name) ihright)

end Derivation

/-! ### What is derived stays derived -/

namespace Derivation

variable {r : Rule}

/-- A call by the qualified name of a function. -/
def qualifiedCall (f : Elementary) (position opened closed : Nat)
    (argument : Derivation .qualified .sum) : Derivation .qualified .atom :=
  .call f.qualifiedName position opened closed (Vocabulary.function?_qualifiedName f) argument

/-- The reciprocal of an atom, in a group. -/
def reciprocal (position closed : Nat) (a : Derivation .qualified .atom) :
    Derivation .qualified .atom :=
  .group position closed <| .single <| .extended
    (.single (.unsigned (.unraised (.number "1" position)))) .slash position
    (.unsigned (.unraised a))

/-- A derivation of user notation, written with qualified names.  Reciprocals
become groups, everything else keeps its shape. -/
def qualified {r : Rule} : Derivation .surface r → Derivation .qualified r
  | number text position => .number text position
  | «variable» position => .variable position
  | constant name position known => .constant name position known
  | @call _ (.direct f) _ position opened closed _ argument =>
      qualifiedCall f position opened closed argument.qualified
  | @call _ (.reciprocal f) _ position opened closed _ argument =>
      reciprocal position closed (qualifiedCall f position opened closed argument.qualified)
  | group opened closed inside => .group opened closed inside.qualified
  | unraised operand => .unraised operand.qualified
  | raised base position exponent => .raised base.qualified position exponent.qualified
  | unsigned operand => .unsigned operand.qualified
  | signed sign position operand => .signed sign position operand.qualified
  | single operand => .single operand.qualified
  | extended left operator position right =>
      .extended left.qualified operator position right.qualified

/-- Qualifying names keeps exponential bases what they are. -/
theorem isExponentialBase_qualified (d : Derivation .surface r) :
    d.qualified.isExponentialBase = d.isExponentialBase := by
  cases d with
  | @call f => cases f <;> rfl
  | _ => rfl

/-- Qualifying names keeps the tree; reciprocals are written out as what they mean. -/
theorem tree_qualified {K : Type} [Scalar K] [Numeral K] (d : Derivation .surface r) :
    d.qualified.tree (K := K) = d.tree := by
  induction d with
  | number | «variable» | constant => rfl
  | @call f name position opened closed known argument ih =>
      cases f with
      | direct f => exact congrArg (Expr.call f) ih
      | reciprocal f => exact congrArg (fun u => Expr.div _ (Expr.call f u)) ih
  | group _ _ _ ih | unraised _ ih | unsigned _ ih | single _ ih => exact ih
  | raised base position exponent ihbase ihexponent =>
      rw [qualified, tree, tree, isExponentialBase_qualified, ihbase, ihexponent]
  | signed sign position operand ih => rw [qualified, tree, tree, ih]
  | extended left operator position right ihleft ihright =>
      rw [qualified, tree, tree, ihleft, ihright]

/-- What the grammar of user notation derives is qualified as described. -/
theorem qualifies (d : Derivation .surface r) : Qualifies d.lexemes d.qualified.lexemes := by
  induction d with
  | number => exact .keep _ (by simp) .nil
  | «variable» =>
      refine .keep _ ?_ .nil
      rintro _ ⟨⟩
      exact Vocabulary.surface.variable_apart.1
  | constant name position known =>
      refine .keep _ ?_ .nil
      rintro _ ⟨⟩
      exact Vocabulary.function?_eq_none known
  | @call f name position opened closed known argument ih =>
      have group : Qualifies (⟨.opening, opened⟩ :: (argument.lexemes ++ [⟨.closing, closed⟩]))
          (⟨.opening, opened⟩ :: (argument.qualified.lexemes ++ [⟨.closing, closed⟩])) :=
        .keep _ (by simp) (ih.append (.keep _ (by simp) .nil))
      cases f with
      | direct f => exact .direct position opened known group
      | reciprocal f =>
          have step :=
            Qualifies.reciprocal position opened closed known argument.balanced group .nil
          exact step
  | group opened closed inside ih =>
      exact .keep _ (by simp) (ih.append (.keep _ (by simp) .nil))
  | unraised _ ih | unsigned _ ih | single _ ih => exact ih
  | raised base position exponent ihbase ihexponent =>
      exact ihbase.append (.keep _ (by simp) ihexponent)
  | signed sign position operand ih =>
      exact .keep _ (fun name same => absurd same (sign.token_ne_ident name)) ih
  | extended left operator position right ihleft ihright =>
      refine ihleft.append (.keep _ ?_ ihright)
      exact fun name same => absurd same (operator.token_ne_ident name)

section Backward

variable {lexemes result : List Lexeme}

/-- A name that is no function stems from itself. -/
theorem ident_rest {name : String} {position : Nat}
    (noFunction : Vocabulary.qualified.function? name = none)
    (h : Qualifies lexemes (⟨.ident name, position⟩ :: result)) :
    ∃ rest, lexemes = ⟨.ident name, position⟩ :: rest ∧ Qualifies rest result := by
  rcases h.ident_cases with ⟨rest, rfl, -, h⟩ | ⟨f, bare, opened, inner, rfl, -⟩
  · exact ⟨rest, rfl, h⟩
  · cases (Vocabulary.function?_qualifiedName f).symm.trans noFunction

/-- The argument of a reciprocal is derived if the reciprocal is, written out. -/
theorem exists_argument {s : Derivation .surface .sum} {f : Elementary}
    {position opened closed closed' : Nat} {inside after rest : List Lexeme}
    (matched : Balanced inside)
    (same : ⟨.number "1", position⟩ :: ⟨.slash, position⟩ :: ⟨.ident f.qualifiedName, position⟩
      :: ⟨.opening, opened⟩ :: (inside ++ [⟨.closing, closed⟩]) ++ ⟨.closing, closed⟩ :: after =
        s.lexemes ++ ⟨.closing, closed'⟩ :: rest) :
    closed = closed' ∧ after = rest ∧
      ∃ argument : Derivation .surface .sum, argument.lexemes = inside := by
  have quotient : Balanced (⟨.number "1", position⟩ :: ⟨.slash, position⟩
      :: ⟨.ident f.qualifiedName, position⟩
      :: ⟨.opening, opened⟩ :: (inside ++ [⟨.closing, closed⟩])) :=
    .cons (by simp) (.cons (by simp) (.cons (by simp) (matched.group opened closed)))
  obtain ⟨eq, rfl, rfl⟩ := quotient.eq_of_append_eq s.balanced same
  obtain ⟨opened', closed', argument, behind, group⟩ :=
    s.callsOnly (Vocabulary.surface_function?_qualifiedName f)
      [⟨.number "1", position⟩, ⟨.slash, position⟩] position _ eq.symm
  obtain ⟨-, group⟩ := List.cons.inj group
  exact ⟨rfl, rfl, argument, (matched.eq_of_append_eq argument.balanced group).1.symm⟩

/-- What is read behind the step has been a derivation before. -/
theorem exists_of_qualifies (d : Derivation .qualified r)
    (h : Qualifies lexemes (d.lexemes ++ result)) :
    ∃ (s : Derivation .surface r) (rest : List Lexeme),
      lexemes = s.lexemes ++ rest ∧ Qualifies rest result := by
  induction d generalizing lexemes result with
  | number text position =>
      obtain ⟨rest, rfl, after⟩ := h.exists_rest (by simp) (by simp)
      exact ⟨.number text position, rest, rfl, after⟩
  | «variable» position =>
      obtain ⟨rest, rfl, after⟩ := ident_rest Vocabulary.qualified.variable_apart.1 h
      exact ⟨.variable position, rest, rfl, after⟩
  | constant name position known =>
      obtain ⟨rest, rfl, after⟩ := ident_rest (Vocabulary.function?_eq_none known) h
      exact ⟨.constant name position known, rest, rfl, after⟩
  | call name position opened closed known argument ih =>
      rw [Derivation.lexemes, List.cons_append, List.cons_append, List.append_assoc] at h
      rcases h.ident_cases with ⟨rest, rfl, unknown, -⟩ |
        ⟨f, bare, opened', inner, rfl, known', rfl, group⟩
      · obtain ⟨f, rfl, rfl⟩ := Vocabulary.exists_of_function?_normal known
        cases (Vocabulary.surface_function?_qualifiedName f).symm.trans unknown
      · obtain ⟨_, same, inside⟩ := group.exists_rest_of_opening
        cases same
        obtain ⟨s, rest, rfl, behind⟩ := ih inside
        obtain ⟨rest, rfl, after⟩ := behind.exists_rest (by simp) (by simp)
        refine ⟨.call bare position opened closed known' s, rest, ?_, after⟩
        rw [Derivation.lexemes, List.cons_append, List.cons_append, List.append_assoc,
          List.singleton_append]
  | group opened closed inside ih =>
      rw [Derivation.lexemes, List.cons_append, List.append_assoc] at h
      rcases h.opening_cases with ⟨inner, rfl, inner⟩ |
        ⟨f, name, opened', closed', inside', argument, after, result', known, rfl, same, matched,
          hgroup, hafter⟩
      · obtain ⟨s, rest, rfl, behind⟩ := ih inner
        obtain ⟨rest, rfl, after⟩ := behind.exists_rest (by simp) (by simp)
        refine ⟨.group opened closed s, rest, ?_, after⟩
        rw [Derivation.lexemes, List.cons_append, List.append_assoc, List.singleton_append]
      · -- the group has been written for the name of a reciprocal
        have call := Qualifies.direct opened opened'
          (Vocabulary.surface_function?_qualifiedName f)
          (hgroup.append (.keep ⟨.closing, closed'⟩ (by simp) hafter))
        have quotient := Qualifies.keep ⟨.number "1", opened⟩ (by simp)
          (.keep ⟨.slash, opened⟩ (by simp) call)
        rw [← same] at quotient
        obtain ⟨s, rest, eq, behind⟩ := ih quotient
        obtain ⟨rest, rfl, last⟩ := behind.exists_rest (by simp) (by simp)
        obtain ⟨rfl, rfl, t, rfl⟩ := exists_argument matched eq
        refine ⟨.call name opened opened' closed' known t, after, ?_, last⟩
        rw [Derivation.lexemes, List.cons_append, List.cons_append, List.append_assoc,
          List.singleton_append]
  | unraised operand ih =>
      obtain ⟨s, rest, rfl, after⟩ := ih h
      exact ⟨.unraised s, rest, rfl, after⟩
  | raised base position exponent ihbase ihexponent =>
      rw [Derivation.lexemes, List.append_assoc] at h
      obtain ⟨s, _, rfl, behind⟩ := ihbase h
      obtain ⟨_, rfl, exponent⟩ := behind.exists_rest (by simp) (by simp)
      obtain ⟨t, rest, rfl, after⟩ := ihexponent exponent
      refine ⟨.raised s position t, rest, ?_, after⟩
      rw [Derivation.lexemes, List.append_assoc, List.cons_append]
  | unsigned operand ih =>
      obtain ⟨s, rest, rfl, after⟩ := ih h
      exact ⟨.unsigned s, rest, rfl, after⟩
  | signed sign position operand ih =>
      obtain ⟨_, rfl, behind⟩ := h.exists_rest sign.token_ne_ident sign.token_ne_parenthesis.1
      obtain ⟨s, rest, rfl, after⟩ := ih behind
      exact ⟨.signed sign position s, rest, rfl, after⟩
  | single operand ih =>
      obtain ⟨s, rest, rfl, after⟩ := ih h
      exact ⟨.single s, rest, rfl, after⟩
  | extended left operator position right ihleft ihright =>
      rw [Derivation.lexemes, List.append_assoc] at h
      obtain ⟨s, _, rfl, behind⟩ := ihleft h
      obtain ⟨_, rfl, right⟩ :=
        behind.exists_rest operator.token_ne_ident operator.token_ne_parenthesis.1
      obtain ⟨t, rest, rfl, after⟩ := ihright right
      refine ⟨.extended s operator position t, rest, ?_, after⟩
      rw [Derivation.lexemes, List.append_assoc, List.cons_append]

end Backward

end Derivation

end Fluxion
