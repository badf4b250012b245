import Fluxion.Proofs.Renaming

/-!
# The way to normal form

The steps from user notation to normal form take derivations to derivations.  No two neighbours in a
derivation denote a product, so the step that writes products out leaves it alone
(`Derivation.withProducts_eq`); the steps behind it are those of `Fluxion.Proofs.Qualification`,
`Fluxion.Proofs.Exponentials` and `Fluxion.Proofs.Renaming`.  Together they reach a normal form from
every derivation of user notation, and read it as the same tree (`Derivation.exists_normal`); and
they reach what can be read from nothing but derivations (`Derivation.exists_surface`).
-/

namespace Fluxion

open Formula (Token Lexeme)

/-! ### Products are written out already -/

/-- Lexemes that denote a product with nothing before them.  It is decided by
the first one. -/
def Unjoined (rest : List Lexeme) : Prop :=
  ∀ second ∈ rest.head?, ∀ first, Formula.juxtaposed first second.token = false

section Products

variable {rest : List Lexeme} {s : Strength}

theorem unjoined_nil : Unjoined [] := by simp [Unjoined]

/-- Lexemes that start with a token which nothing is multiplied with
stand for themselves. -/
theorem unjoined_cons {token : Token} (position : Nat)
    (h : ∀ first, Formula.juxtaposed first token = false) :
    Unjoined (⟨token, position⟩ :: rest) := by
  rintro _ ⟨⟩
  exact h

theorem unjoined_closing (position : Nat) : Unjoined (⟨.closing, position⟩ :: rest) :=
  unjoined_cons position fun first => by cases first <;> rfl

theorem unjoined_power (position : Nat) : Unjoined (⟨.power, position⟩ :: rest) :=
  unjoined_cons position fun first => by cases first <;> rfl

theorem unjoined_operator (operator : Operator s) (position : Nat) :
    Unjoined (⟨operator.token, position⟩ :: rest) :=
  unjoined_cons position fun first => by cases operator <;> cases first <;> rfl

/-- A lexeme is kept, and a star written behind it where it denotes a product
with the next one. -/
theorem withProducts_cons_cases (first : Lexeme) (rest : List Lexeme) :
    Formula.withProducts (first :: rest) = first :: Formula.withProducts rest ∨
      ∃ second others, rest = second :: others ∧
        Formula.juxtaposed first.token second.token = true ∧
        Formula.withProducts (first :: rest) =
          first :: ⟨.star, second.position⟩ :: Formula.withProducts rest := by
  cases rest with
  | nil => exact .inl rfl
  | cons second others =>
      rw [Formula.withProducts]
      cases joined : Formula.juxtaposed first.token second.token with
      | true => exact .inr ⟨second, others, rfl, joined, rfl⟩
      | false => exact .inl rfl

/-- A lexeme is kept if it makes no product with its neighbour. -/
theorem withProducts_cons {first : Lexeme} {rest : List Lexeme}
    (apart : ∀ second ∈ rest.head?, Formula.juxtaposed first.token second.token = false) :
    Formula.withProducts (first :: rest) = first :: Formula.withProducts rest := by
  cases rest with
  | nil => rfl
  | cons second others =>
      have alone : Formula.juxtaposed first.token second.token = false := apart second rfl
      rw [Formula.withProducts, alone]
      rfl

theorem Unjoined.withProducts_cons (h : Unjoined rest) (first : Lexeme) :
    Formula.withProducts (first :: rest) = first :: Formula.withProducts rest :=
  Fluxion.withProducts_cons fun second hsecond => h second hsecond first.token

theorem withProducts_operator (operator : Operator s) (position : Nat) :
    Formula.withProducts (⟨operator.token, position⟩ :: rest) =
      ⟨operator.token, position⟩ :: Formula.withProducts rest :=
  withProducts_cons fun second _ => by cases operator <;> rfl

end Products

namespace Derivation

variable {r : Rule}

/-- A derivation in user notation has its products written, in front of whatever is
not multiplied with it.  The induction has one case for each rule. -/
theorem withProducts_append (d : Derivation .surface r) {rest : List Lexeme}
    (unjoined : Unjoined rest) :
    Formula.withProducts (d.lexemes ++ rest) = d.lexemes ++ Formula.withProducts rest := by
  induction d generalizing rest with
  | number | «variable» | constant => exact unjoined.withProducts_cons _
  | call name position opened closed known argument ih =>
      have callable : Formula.isCallable name = true := by
        rw [Vocabulary.isCallable_eq, known]
        rfl
      have noProduct : Formula.juxtaposed (.ident name) .opening = false := by
        rw [Formula.juxtaposed, callable]
        rfl
      rw [lexemes, List.cons_append, List.cons_append, List.append_assoc, List.singleton_append,
        withProducts_cons, withProducts_cons, ih (unjoined_closing closed),
        unjoined.withProducts_cons]
      · simp
      · exact fun _ _ => rfl
      · rintro _ ⟨⟩
        exact noProduct
  | group opened closed inside ih =>
      rw [lexemes, List.cons_append, List.append_assoc, List.singleton_append,
        withProducts_cons fun _ _ => rfl, ih (unjoined_closing closed), unjoined.withProducts_cons]
      simp
  | unraised _ ih | unsigned _ ih | single _ ih => exact ih unjoined
  | raised base position exponent ihbase ihexponent =>
      rw [lexemes, List.append_assoc, List.cons_append, ihbase (unjoined_power position),
        withProducts_cons fun _ _ => rfl, ihexponent unjoined]
      simp
  | signed sign position operand ih =>
      rw [lexemes, List.cons_append, withProducts_operator, ih unjoined]
      rfl
  | extended left operator position right ihleft ihright =>
      rw [lexemes, List.append_assoc, List.cons_append,
        ihleft (unjoined_operator operator position), withProducts_operator, ihright unjoined]
      simp

/-- Writing out products keeps what the grammar of user notation derives. -/
theorem withProducts_eq (d : Derivation .surface r) :
    Formula.withProducts d.lexemes = d.lexemes := by
  have whole := d.withProducts_append unjoined_nil
  rw [List.append_nil] at whole
  exact whole.trans (List.append_nil _)

end Derivation

/-! ### All steps -/

/-- All steps succeed exactly if names can be qualified and powers of `e` be
written as calls; the other steps never fail. -/
theorem normalized_eq_ok_iff {lexemes result : List Lexeme} :
    Formula.normalized lexemes = .ok result ↔
      ∃ qualified exponentials,
        Qualifies (Formula.withProducts (Formula.withPowers lexemes)) qualified ∧
          Exponentiates qualified exponentials ∧
          exponentials.map qualifiedConstant = result := by
  constructor
  · intro done
    obtain ⟨qualified, doneQualified, done⟩ := bind_eq_ok done
    obtain ⟨exponentials, doneExponentials, done⟩ := bind_eq_ok done
    refine ⟨qualified, exponentials, withQualifiedNames_eq_ok_iff.1 doneQualified,
      withExponentials_eq_ok_iff.1 doneExponentials, ?_⟩
    rw [← withConstants_eq]
    exact Except.ok.inj done
  · rintro ⟨qualified, exponentials, hqualified, hexponentials, rfl⟩
    rw [Formula.normalized, withQualifiedNames_eq hqualified, ← withConstants_eq]
    show (Formula.withExponentials qualified).bind _ = _
    rw [withExponentials_eq hexponentials]
    rfl

namespace Derivation

/-- What is derived in user notation has a normal form, which is read as
the same tree. -/
theorem exists_normal (d : Derivation .surface .sum) {lexemes : List Lexeme}
    (written : Formula.withProducts (Formula.withPowers lexemes) = d.lexemes) :
    ∃ d' : Derivation .normal .sum, Formula.normalized lexemes = .ok d'.lexemes ∧
      ∀ {K : Type} [Scalar K] [Numeral K], d'.tree (K := K) = d.tree := by
  have constants := List.forall₂_map_right_iff.2
    (List.forall₂_same.2 fun lexeme (_ : lexeme ∈ d.qualified.exponentiated.lexemes) =>
      (rfl : qualifiedConstant lexeme = qualifiedConstant lexeme))
  obtain ⟨d', eq, alike⟩ := renaming_qualifiedConstant.exists_derivation _ constants
  refine ⟨d', normalized_eq_ok_iff.2 ⟨_, _, ?_, d.qualified.isExponentiated.whole, eq.symm⟩, ?_⟩
  · rw [written]
    exact d.qualifies
  · intro K _ _
    rw [alike.tree, tree_exponentiated, tree_qualified]

/-- Whatever is read in normal form stems from a derivation of user notation.
This is the half that makes the reader of user notation sound. -/
theorem exists_surface (d' : Derivation .normal .sum) {lexemes : List Lexeme}
    (done : Formula.normalized lexemes = .ok d'.lexemes) :
    ∃ d : Derivation .surface .sum,
      Formula.withProducts (Formula.withPowers lexemes) = d.lexemes := by
  obtain ⟨qualified, exponentials, hqualified, hexponentials, same⟩ := normalized_eq_ok_iff.1 done
  have constants : List.Forall₂ (fun a b => qualifiedConstant b = a) d'.lexemes exponentials := by
    rw [← same]
    exact List.forall₂_map_left_iff.2 (List.forall₂_same.2 fun _ _ => rfl)
  obtain ⟨called, rfl, -⟩ := renaming_bareConstant.exists_derivation d' constants
  rw [← List.append_nil called.lexemes] at hexponentials
  obtain ⟨half, rest, rfl, nothing⟩ := (called.stems hexponentials).exists_of_ne_atom (by simp)
  cases nothing
  obtain ⟨d, rest, eq, nothing⟩ := half.exists_of_qualifies hqualified
  cases nothing
  exact ⟨d, by rw [eq, List.append_nil]⟩

/-- The derivation of user notation has the same tree, and nests as deep. -/
theorem exists_surface_alike (d' : Derivation .normal .sum) {lexemes : List Lexeme}
    (done : Formula.normalized lexemes = .ok d'.lexemes) :
    ∃ d : Derivation .surface .sum,
      Formula.withProducts (Formula.withPowers lexemes) = d.lexemes ∧
        ∀ {K : Type} [Scalar K] [Numeral K], d'.tree (K := K) = d.tree := by
  obtain ⟨d, written⟩ := d'.exists_surface done
  obtain ⟨again, done', same⟩ := d.exists_normal written
  rw [done] at done'
  obtain rfl := eq_of_lexemes_eq (Except.ok.inj done')
  exact ⟨d, written, same⟩

end Derivation

end Fluxion
