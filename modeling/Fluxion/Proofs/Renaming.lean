import Fluxion.Proofs.Exponentials

/-!
# Names and positions do not matter

A derivation knows the spelling of its names and the positions of its lexemes, and its tree depends
on neither: lexemes that say the same in other words, or in other places, have a derivation with the
same tree (`Renaming.exists_derivation`).  The step that qualifies constants is such a renaming, in
both directions.
-/

namespace Fluxion

open Formula (Token Lexeme)

/-- A relation of lexemes that keeps what names stand for, and all that is no name. -/
structure Renaming (v w : Vocabulary) (R : Lexeme → Lexeme → Prop) : Prop where
  symbol {token token' : Token} {position position' : Nat}
    (h : R ⟨token, position⟩ ⟨token', position'⟩) (noName : ∀ name, token ≠ .ident name) :
    token' = token
  «variable» {token : Token} {position position' : Nat}
    (h : R ⟨.ident variableName, position⟩ ⟨token, position'⟩) : token = .ident variableName
  constant {name : String} {c : Constant} {token : Token} {position position' : Nat}
    (h : R ⟨.ident name, position⟩ ⟨token, position'⟩) (known : v.constant? name = some c) :
    ∃ name', token = .ident name' ∧ w.constant? name' = some c ∧
      w.isExponential name' = v.isExponential name
  function {name : String} {f : Formula.SurfaceFunction} {token : Token}
    {position position' : Nat} (h : R ⟨.ident name, position⟩ ⟨token, position'⟩)
    (known : v.function? name = some f) :
    ∃ name', token = .ident name' ∧ w.function? name' = some f

namespace Derivation

variable {v w : Vocabulary} {r : Rule}

/-- Derivations that say the same: they nest as deep and have the same tree.
Exchanging one for the other changes nothing that is read. -/
structure Alike (d : Derivation v r) (d' : Derivation w r) : Prop where
  nesting : d'.nesting = d.nesting
  isExponentialBase : d'.isExponentialBase = d.isExponentialBase
  tree {K : Type} [Scalar K] [Numeral K] : d'.tree (K := K) = d.tree

end Derivation

namespace Renaming

variable {v w : Vocabulary} {R : Lexeme → Lexeme → Prop} {r : Rule}

/-- What is related to a derivation and to what follows it is an alike derivation and
what is related to the rest.  The induction is on the derivation. -/
theorem exists_derivation_append (names : Renaming v w R) (d : Derivation v r)
    {rest related : List Lexeme} (h : List.Forall₂ R (d.lexemes ++ rest) related) :
    ∃ (d' : Derivation w r) (rest' : List Lexeme),
      related = d'.lexemes ++ rest' ∧ List.Forall₂ R rest rest' ∧ d.Alike d' := by
  induction d generalizing rest related with
  | number text position =>
      obtain ⟨⟨_, place⟩, rest', head, after, rfl⟩ := List.forall₂_cons_left_iff.1 h
      obtain rfl := names.symbol head (by simp)
      exact ⟨.number text place, rest', rfl, after, rfl, rfl, rfl⟩
  | «variable» position =>
      obtain ⟨⟨_, place⟩, rest', head, after, rfl⟩ := List.forall₂_cons_left_iff.1 h
      obtain rfl := names.variable head
      exact ⟨.variable place, rest', rfl, after, rfl, rfl, rfl⟩
  | constant name position known =>
      obtain ⟨⟨_, place⟩, rest', head, after, rfl⟩ := List.forall₂_cons_left_iff.1 h
      obtain ⟨name', rfl, known', same⟩ := names.constant head known
      exact ⟨.constant name' place known', rest', rfl, after, rfl, same, rfl⟩
  | @call f name position opened closed known argument ih =>
      rw [Derivation.lexemes, List.cons_append, List.cons_append, List.append_assoc] at h
      obtain ⟨⟨_, place⟩, _, head, group, rfl⟩ := List.forall₂_cons_left_iff.1 h
      obtain ⟨⟨_, opened'⟩, _, opening, inside, rfl⟩ := List.forall₂_cons_left_iff.1 group
      obtain ⟨d', _, rfl, behind, alike⟩ := ih inside
      obtain ⟨⟨_, closed'⟩, rest', closing, after, rfl⟩ := List.forall₂_cons_left_iff.1 behind
      obtain ⟨name', rfl, known'⟩ := names.function head known
      obtain rfl := names.symbol opening (by simp)
      obtain rfl := names.symbol closing (by simp)
      refine ⟨.call name' place opened' closed' known' d', rest', ?_, after, alike.nesting, rfl,
        congrArg f.apply alike.tree⟩
      rw [Derivation.lexemes, List.cons_append, List.cons_append, List.append_assoc,
        List.singleton_append]
  | group opened closed inside ih =>
      rw [Derivation.lexemes, List.cons_append, List.append_assoc] at h
      obtain ⟨⟨_, opened'⟩, _, opening, inside, rfl⟩ := List.forall₂_cons_left_iff.1 h
      obtain ⟨d', _, rfl, behind, alike⟩ := ih inside
      obtain ⟨⟨_, closed'⟩, rest', closing, after, rfl⟩ := List.forall₂_cons_left_iff.1 behind
      obtain rfl := names.symbol opening (by simp)
      obtain rfl := names.symbol closing (by simp)
      refine ⟨.group opened' closed' d', rest', ?_, after, alike.nesting, rfl, alike.tree⟩
      rw [Derivation.lexemes, List.cons_append, List.append_assoc, List.singleton_append]
  | unraised operand ih =>
      obtain ⟨d', rest', rfl, after, alike⟩ := ih h
      exact ⟨.unraised d', rest', rfl, after, alike.nesting, rfl, alike.tree⟩
  | raised base position exponent ihbase ihexponent =>
      rw [Derivation.lexemes, List.append_assoc] at h
      obtain ⟨base', _, rfl, behind, alikeBase⟩ := ihbase h
      obtain ⟨⟨_, position'⟩, _, power, others, rfl⟩ := List.forall₂_cons_left_iff.1 behind
      obtain rfl := names.symbol power (by simp)
      obtain ⟨exponent', rest', rfl, after, alikeExponent⟩ := ihexponent others
      refine ⟨.raised base' position' exponent', rest', ?_, after, ?_, rfl, ?_⟩
      · rw [Derivation.lexemes, List.append_assoc, List.cons_append]
      · rw [Derivation.nesting, Derivation.nesting, alikeBase.nesting, alikeExponent.nesting]
      · intro K _ _
        rw [Derivation.tree, Derivation.tree, alikeBase.isExponentialBase, alikeBase.tree,
          alikeExponent.tree]
  | unsigned operand ih =>
      obtain ⟨d', rest', rfl, after, alike⟩ := ih h
      exact ⟨.unsigned d', rest', rfl, after, congrArg (· + 1) alike.nesting, rfl, alike.tree⟩
  | signed sign position operand ih =>
      obtain ⟨⟨_, position'⟩, _, head, behind, rfl⟩ := List.forall₂_cons_left_iff.1 h
      obtain rfl := names.symbol head sign.token_ne_ident
      obtain ⟨d', rest', rfl, after, alike⟩ := ih behind
      exact ⟨.signed sign position' d', rest', rfl, after, congrArg (· + 1) alike.nesting, rfl,
        congrArg (Derivation.signTree sign) alike.tree⟩
  | single operand ih =>
      obtain ⟨d', rest', rfl, after, alike⟩ := ih h
      exact ⟨.single d', rest', rfl, after, alike.nesting, rfl, alike.tree⟩
  | extended left operator position right ihleft ihright =>
      rw [Derivation.lexemes, List.append_assoc] at h
      obtain ⟨left', _, rfl, behind, alikeLeft⟩ := ihleft h
      obtain ⟨⟨_, position'⟩, _, head, others, rfl⟩ := List.forall₂_cons_left_iff.1 behind
      obtain rfl := names.symbol head operator.token_ne_ident
      obtain ⟨right', rest', rfl, after, alikeRight⟩ := ihright others
      refine ⟨.extended left' operator position' right', rest', ?_, after, ?_, rfl, ?_⟩
      · rw [Derivation.lexemes, List.append_assoc, List.cons_append]
      · rw [Derivation.nesting, Derivation.nesting, alikeLeft.nesting, alikeRight.nesting]
      · intro K _ _
        rw [Derivation.tree, Derivation.tree, alikeLeft.tree, alikeRight.tree]

/-- Lexemes that say the same as those of a derivation are derived alike. -/
theorem exists_derivation (names : Renaming v w R) (d : Derivation v r) {related : List Lexeme}
    (h : List.Forall₂ R d.lexemes related) :
    ∃ d' : Derivation w r, d'.lexemes = related ∧ d.Alike d' := by
  rw [← List.append_nil d.lexemes] at h
  obtain ⟨d', rest', rfl, nothing, alike⟩ := names.exists_derivation_append d h
  cases nothing
  exact ⟨d', (List.append_nil _).symm, alike⟩

end Renaming

/-! ### Positions -/

/-- Derivations do not depend on the positions of lexemes. -/
theorem renaming_position (v : Vocabulary) :
    Renaming v v fun a b => a.token = b.token where
  symbol h _ := h.symm
  «variable» h := h.symm
  constant h known := ⟨_, h.symm, known, rfl⟩
  function h known := ⟨_, h.symm, known⟩

/-! ### Constants -/

/-- A name, qualified if it is the bare one of a constant. -/
def Constant.qualify (name : String) : String :=
  ((Constant.ofName? name).map Constant.qualifiedName).getD name

/-- What qualifying constants makes of a lexeme. -/
def qualifiedConstant (lexeme : Lexeme) : Lexeme :=
  match lexeme.token with
  | .ident name => { lexeme with token := .ident (Constant.qualify name) }
  | _ => lexeme

/-- Qualifying constants works on one lexeme at a time, so it is a
renaming of lexemes. -/
theorem withConstants_eq (lexemes : List Lexeme) :
    Formula.withConstants lexemes = lexemes.map qualifiedConstant := by
  refine List.map_congr_left fun lexeme _ => ?_
  obtain ⟨token, position⟩ := lexeme
  cases token with
  | ident name =>
      simp only [qualifiedConstant, Constant.qualify]
      cases Constant.ofName? name <;> rfl
  | _ => rfl

namespace Constant

/-- A name stays as it is, or is that of a constant and gets the qualifier. -/
theorem qualify_cases (name : String) :
    (∃ c : Constant, name = c.name ∧ qualify name = c.qualifiedName) ∨
      Constant.ofName? name = none ∧ qualify name = name := by
  cases found : Constant.ofName? name with
  | none => exact .inr ⟨rfl, by rw [qualify, found]; rfl⟩
  | some c => exact .inl ⟨c, eq_of_find?_spelling found, by rw [qualify, found]; rfl⟩

/-- A name stands for the same constant, qualified or not. -/
theorem ofQualifiedName?_qualify (name : String) :
    Vocabulary.normal.constant? (qualify name) = Vocabulary.called.constant? name := by
  rcases qualify_cases name with ⟨c, rfl, qualified⟩ | ⟨notBare, same⟩
  · rw [qualified]
    cases c <;> decide
  · rw [same]
    show _ = (Constant.ofName? name).or _
    rw [notBare]
    rfl

/-- Qualifying constants makes and loses no name of a function. -/
theorem function?_qualify (name : String) :
    Vocabulary.normal.function? (qualify name) = Vocabulary.called.function? name := by
  rcases qualify_cases name with ⟨c, rfl, qualified⟩ | ⟨-, same⟩
  · rw [qualified]
    cases c <;> decide
  · rw [same]
    rfl

/-- The variable is not touched, and nothing else becomes the variable. -/
theorem qualify_eq_variableName_iff (name : String) :
    qualify name = variableName ↔ name = variableName := by
  rcases qualify_cases name with ⟨c, rfl, qualified⟩ | ⟨-, same⟩
  · rw [qualified]
    cases c <;> decide
  · rw [same]

end Constant

theorem qualifiedConstant_of_not_ident {token : Token} (position : Nat)
    (noName : ∀ name, token ≠ .ident name) :
    qualifiedConstant ⟨token, position⟩ = ⟨token, position⟩ := by
  cases token with
  | ident name => exact absurd rfl (noName name)
  | _ => rfl

theorem token_qualifiedConstant_eq_ident {lexeme : Lexeme} {name : String}
    (h : (qualifiedConstant lexeme).token = .ident name) :
    ∃ bare, lexeme.token = .ident bare ∧ name = Constant.qualify bare := by
  obtain ⟨token, position⟩ := lexeme
  cases token with
  | ident bare => exact ⟨bare, rfl, (Token.ident.inj h).symm⟩
  | _ => cases h

/-- Qualifying constants keeps what is derived. -/
theorem renaming_qualifiedConstant :
    Renaming .called .normal fun a b => qualifiedConstant a = b where
  symbol h noName := by
    rw [qualifiedConstant_of_not_ident _ noName] at h
    exact (congrArg Lexeme.token h).symm
  «variable» h := (congrArg Lexeme.token h).symm
  constant h known :=
    ⟨_, (congrArg Lexeme.token h).symm, (Constant.ofQualifiedName?_qualify _).trans known, rfl⟩
  function h known :=
    ⟨_, (congrArg Lexeme.token h).symm, (Constant.function?_qualify _).trans known⟩

/-- What is derived behind the step that qualifies constants has been
derived before. -/
theorem renaming_bareConstant :
    Renaming .normal .called fun a b => qualifiedConstant b = a where
  symbol {token token' position position'} h noName := by
    by_cases named : ∃ name, token' = .ident name
    · obtain ⟨name, rfl⟩ := named
      exact absurd (congrArg Lexeme.token h).symm (noName _)
    · rw [qualifiedConstant_of_not_ident position' fun name same => named ⟨name, same⟩] at h
      exact congrArg Lexeme.token h
  «variable» h := by
    obtain ⟨bare, rfl, same⟩ := token_qualifiedConstant_eq_ident (congrArg Lexeme.token h)
    rw [(Constant.qualify_eq_variableName_iff bare).1 same.symm]
  constant h known := by
    obtain ⟨bare, rfl, rfl⟩ := token_qualifiedConstant_eq_ident (congrArg Lexeme.token h)
    exact ⟨bare, rfl, (Constant.ofQualifiedName?_qualify bare).symm.trans known, rfl⟩
  function h known := by
    obtain ⟨bare, rfl, rfl⟩ := token_qualifiedConstant_eq_ident (congrArg Lexeme.token h)
    exact ⟨bare, rfl, (Constant.function?_qualify bare).symm.trans known⟩

end Fluxion
