import Fluxion.Proofs.Normalizing

/-!
# Normal form is left alone

What the grammar of normal form derives no step on the way to normal form changes
(`Derivation.settled`): its names are qualified, so none of the steps finds a name to work on, and
its powers and products are written out.  The tree of what is derived knows no variable but the one
(`Derivation.foreignVariable?_tree`).
-/

namespace Fluxion

open Formula (Token Lexeme)

/-- Lexemes that no step on the way to normal form changes.  Each step has its
own field, as they are proved apart. -/
structure Formula.Settled (lexemes : List Lexeme) : Prop where
  powers : withPowers lexemes = lexemes
  products : withProducts lexemes = lexemes
  names : withQualifiedNames lexemes = .ok lexemes
  exponentials : withExponentials lexemes = .ok lexemes
  constants : withConstants lexemes = lexemes

/-- What every step leaves alone is left alone by all of them. -/
theorem Formula.Settled.normalized_eq {lexemes : List Lexeme} (h : Settled lexemes) :
    normalized lexemes = .ok lexemes := by
  rw [normalized, h.powers, h.products, h.names]
  show (withExponentials lexemes).bind _ = _
  rw [h.exponentials]
  exact congrArg Except.ok h.constants

/-! ### Names of normal form -/

namespace Vocabulary

/-- The names of normal form are the variable and the qualified names. -/
theorem name_cases {name : String} (h : normal.Spells (.ident name)) :
    name = variableName ∨ (∃ c : Constant, name = c.qualifiedName) ∨
      ∃ f : Elementary, name = f.qualifiedName := by
  rcases h with same | constant | function
  · exact .inl same
  · obtain ⟨c, known⟩ := Option.isSome_iff_exists.1 constant
    exact .inr (.inl ⟨c, eq_of_find?_spelling known⟩)
  · obtain ⟨g, known⟩ := Option.isSome_iff_exists.1 function
    obtain ⟨f, same, -⟩ := exists_of_function?_normal known
    exact .inr (.inr ⟨f, same⟩)

/-- None of them is the bare name of a constant. -/
theorem ofName?_eq_none_of_spells {name : String} (h : normal.Spells (.ident name)) :
    Constant.ofName? name = none := by
  rcases name_cases h with rfl | ⟨c, rfl⟩ | ⟨f, rfl⟩
  · decide
  · cases c <;> decide
  · cases f <;> decide

theorem surface_constant?_of_normal {name : String} {c : Constant}
    (known : normal.constant? name = some c) : surface.constant? name = some c := by
  rw [eq_of_find?_spelling known]
  cases c <;> decide

/-- User notation knows the qualified functions, with the same meaning. -/
theorem surface_function?_of_normal {name : String} {g : Formula.SurfaceFunction}
    (known : normal.function? name = some g) : surface.function? name = some g := by
  obtain ⟨f, rfl, rfl⟩ := exists_of_function?_normal known
  exact surface_function?_qualifiedName f

/-- No qualified name is that of the exponential base, so powers of it stay as
they are written. -/
theorem surface_isExponential_of_normal {name : String} {c : Constant}
    (known : normal.constant? name = some c) : surface.isExponential name = false := by
  rw [eq_of_find?_spelling known]
  cases c <;> decide

end Vocabulary

/-- Normal form is user notation: every derivation of the one is a derivation
of the other, in the same words. -/
theorem renaming_normal_surface : Renaming .normal .surface Eq where
  symbol h _ := (congrArg Lexeme.token h).symm
  «variable» h := (congrArg Lexeme.token h).symm
  constant h known :=
    ⟨_, (congrArg Lexeme.token h).symm, Vocabulary.surface_constant?_of_normal known,
      Vocabulary.surface_isExponential_of_normal known⟩
  function h known :=
    ⟨_, (congrArg Lexeme.token h).symm, Vocabulary.surface_function?_of_normal known⟩

/-! ### The steps -/

/-- Where no `e` is left there are no powers of it, and the step changes nothing. -/
theorem exponentiates_self {lexemes : List Lexeme}
    (noE : ∀ lexeme ∈ lexemes, lexeme.token ≠ .ident "e") : Exponentiates lexemes lexemes := by
  induction lexemes with
  | nil => exact .nil
  | cons lexeme rest ih =>
      obtain ⟨other, others⟩ := List.forall_mem_cons.1 noE
      exact .keep lexeme (fun e => absurd e other) (ih others)

namespace Derivation

variable {r : Rule} (d : Derivation .normal r)

/-- Qualified names are qualified as they are. -/
theorem qualifies_self : Qualifies d.lexemes d.lexemes := by
  induction d with
  | number => exact .keep _ (by simp) .nil
  | «variable» =>
      refine .keep _ ?_ .nil
      rintro _ ⟨⟩
      exact Vocabulary.surface.variable_apart.1
  | constant name position known =>
      refine .keep _ ?_ .nil
      rintro _ ⟨⟩
      exact Vocabulary.function?_eq_none (Vocabulary.surface_constant?_of_normal known)
  | call name position opened closed known argument ih =>
      obtain ⟨f, rfl, rfl⟩ := Vocabulary.exists_of_function?_normal known
      have inner : Qualifies (argument.lexemes ++ [⟨.closing, closed⟩]) _ :=
        ih.append (.keep _ (by simp) .nil)
      exact .direct position opened (Vocabulary.surface_function?_qualifiedName f)
        (.keep _ (by simp) inner)
  | group opened closed inside ih =>
      exact .keep _ (by simp) (ih.append (.keep _ (by simp) .nil))
  | unraised _ ih | unsigned _ ih | single _ ih => exact ih
  | raised base position exponent ihbase ihexponent =>
      exact ihbase.append (.keep _ (by simp) ihexponent)
  | signed sign position operand ih =>
      exact .keep _ (fun name same => absurd same (sign.token_ne_ident name)) ih
  | extended left operator position right ihleft ihright =>
      exact ihleft.append
        (.keep _ (fun name same => absurd same (operator.token_ne_ident name)) ihright)

theorem withProducts_eq_of_normal : Formula.withProducts d.lexemes = d.lexemes := by
  have same : List.Forall₂ Eq d.lexemes d.lexemes := List.forall₂_same.2 fun _ _ => rfl
  obtain ⟨d', eq, -⟩ := renaming_normal_surface.exists_derivation d same
  rw [← eq, d'.withProducts_eq]

/-- What normal form derives is left alone by every step. -/
theorem settled : Formula.Settled d.lexemes where
  powers := by
    refine (List.map_congr_left fun lexeme member => ?_).trans (List.map_id _)
    refine if_neg fun caret => ?_
    have spelled := d.spells_of_mem lexeme member
    rw [caret] at spelled
    exact spelled
  products := d.withProducts_eq_of_normal
  names := withQualifiedNames_eq d.qualifies_self
  exponentials := by
    refine withExponentials_eq (exponentiates_self fun lexeme member e => ?_)
    have spelled := d.spells_of_mem lexeme member
    rw [e] at spelled
    cases Vocabulary.ofName?_eq_none_of_spells spelled
  constants := by
    rw [withConstants_eq]
    refine (List.map_congr_left fun lexeme member => ?_).trans (List.map_id _)
    have spelled := d.spells_of_mem lexeme member
    obtain ⟨token, position⟩ := lexeme
    cases token with
    | ident name =>
        have bare : Constant.qualify name = name := by
          rw [Constant.qualify, Vocabulary.ofName?_eq_none_of_spells spelled]
          rfl
        exact congrArg (fun name => Lexeme.mk (.ident name) position) bare
    | _ => rfl

end Derivation

/-! ### Variables -/

/-- No variable is foreign if only the one is mentioned. -/
theorem Expr.foreignVariable?_eq_none_iff {K : Type} {e : Expr K} {name : String} :
    e.foreignVariable? name = none ↔ ∀ other, e.mentions other = true → other = name := by
  induction e with
  | var other => simp [foreignVariable?, mentions]
  | const | named => simp [foreignVariable?, mentions]
  | add u v left right | sub u v left right | mul u v left right | div u v left right
  | pow u v left right =>
      rw [foreignVariable?]
      simp only [mentions, Bool.or_eq_true, or_imp, forall_and, ← left, ← right]
      cases u.foreignVariable? name <;> simp
  | call f u argument => exact argument

section Variables

variable {K : Type} {name : String}

/-- A function mentions what its argument mentions, reciprocals included. -/
theorem mentions_apply [Numeral K] (f : Formula.SurfaceFunction) (u : Expr K) :
    (f.apply u).mentions name = u.mentions name := by
  cases f <;> rfl

theorem mentions_signTree [Scalar K] (sign : Operator .sum) (u : Expr K) :
    (Derivation.signTree sign u).mentions name = u.mentions name := by
  cases sign with
  | plus => rfl
  | minus => cases u <;> rfl

theorem mentions_join {s : Strength} (operator : Operator s) (u v : Expr K) :
    (operator.join u v).mentions name = (u.mentions name || v.mentions name) := by
  cases operator <;> rfl

variable [Scalar K] [Numeral K] {v : Vocabulary} {r : Rule}

/-- No variable is derived but the one, and where it is, it stands among
the lexemes. -/
theorem Derivation.exists_mem_of_mentions (d : Derivation v r)
    (occurs : (d.tree (K := K)).mentions name = true) :
    name = variableName ∧ ∃ position, ⟨.ident name, position⟩ ∈ d.lexemes := by
  induction d with
  | number | constant => cases occurs
  | «variable» position =>
      obtain rfl := beq_iff_eq.1 occurs
      exact ⟨rfl, position, .head _⟩
  | call _ _ _ _ _ argument ih =>
      rw [tree, mentions_apply] at occurs
      obtain ⟨same, position, member⟩ := ih occurs
      exact ⟨same, position, .tail _ (.tail _ (List.mem_append_left _ member))⟩
  | group _ _ inside ih =>
      obtain ⟨same, position, member⟩ := ih occurs
      exact ⟨same, position, .tail _ (List.mem_append_left _ member)⟩
  | unraised _ ih | unsigned _ ih | single _ ih => exact ih occurs
  | raised base _ exponent ihbase ihexponent =>
      have somewhere : (base.tree (K := K)).mentions name = true ∨
          (exponent.tree (K := K)).mentions name = true := by
        rw [tree] at occurs
        split at occurs
        · exact .inr occurs
        · exact Bool.or_eq_true_iff.1 occurs
      rcases somewhere with occurs | occurs
      · obtain ⟨same, position, member⟩ := ihbase occurs
        exact ⟨same, position, List.mem_append_left _ member⟩
      · obtain ⟨same, position, member⟩ := ihexponent occurs
        exact ⟨same, position, List.mem_append_right _ (.tail _ member)⟩
  | signed _ _ operand ih =>
      rw [tree, mentions_signTree] at occurs
      obtain ⟨same, position, member⟩ := ih occurs
      exact ⟨same, position, .tail _ member⟩
  | extended left _ _ right ihleft ihright =>
      rw [tree, mentions_join, Bool.or_eq_true_iff] at occurs
      rcases occurs with occurs | occurs
      · obtain ⟨same, position, member⟩ := ihleft occurs
        exact ⟨same, position, List.mem_append_left _ member⟩
      · obtain ⟨same, position, member⟩ := ihright occurs
        exact ⟨same, position, List.mem_append_right _ (.tail _ member)⟩

/-- A formula has no variable but its own, as no other name is derived. -/
theorem Derivation.foreignVariable?_tree (d : Derivation v r) :
    (d.tree (K := K)).foreignVariable? variableName = none :=
  Expr.foreignVariable?_eq_none_iff.2 fun _ occurs => (d.exists_mem_of_mentions occurs).1

end Variables

end Fluxion
