import Fluxion.Formula.Grammar

/-!
# Outcomes of readers

Every reader of the grammar hands out a tree and the lexemes behind it, together with a proof that
these are fewer than what it was given.  The proof lets the readers call each other; whoever reasons
about what is read wants to be rid of it.  The outcome of a reader is what it hands out without the
proof, and the outcomes of the readers are tied together by equations: each reader hands the lexemes
behind its first part to the reader of the next one.
-/

namespace Fluxion

open Formula (Token Lexeme Reader GrammarFault)

variable {K : Type}

/-! ### Steps that succeeded or failed -/

/-- A step whose result is renamed has succeeded itself. -/
theorem map_eq_ok {ε α β : Type} {f : α → β} {r : Except ε α} {y : β}
    (h : r.map f = .ok y) : ∃ x, r = .ok x ∧ f x = y := by
  cases r with
  | error e => cases h
  | ok x => exact ⟨x, rfl, Except.ok.inj h⟩

theorem map_eq_ok_iff {ε α β : Type} {f : α → β} {r : Except ε α} {y : β} :
    r.map f = .ok y ↔ ∃ x, r = .ok x ∧ f x = y := by
  refine ⟨map_eq_ok, ?_⟩
  rintro ⟨x, rfl, rfl⟩
  rfl

theorem ok_bind {ε α β : Type} (x : α) (f : α → Except ε β) : (Except.ok x >>= f) = f x := rfl

/-- Two steps that succeed have succeeded one after the other. -/
theorem bind_eq_ok {ε α β : Type} {r : Except ε α} {f : α → Except ε β} {y : β}
    (h : r >>= f = .ok y) : ∃ x, r = .ok x ∧ f x = .ok y := by
  cases r with
  | error e => cases h
  | ok x => exact ⟨x, rfl, h⟩

theorem mapError_eq_ok {ε ε' α : Type} {f : ε → ε'} {r : Except ε α} {x : α}
    (h : r.mapError f = .ok x) : r = .ok x := by
  cases r with
  | error e => cases h
  | ok y => exact congrArg Except.ok (Except.ok.inj h)

theorem map_eq_error {ε α β : Type} {f : α → β} {r : Except ε α} {e : ε}
    (h : r.map f = .error e) : r = .error e := by
  cases r with
  | error e' => exact congrArg Except.error (Except.error.inj h)
  | ok x => cases h

theorem map_eq_error_iff {ε α β : Type} {f : α → β} {r : Except ε α} {e : ε} :
    r.map f = .error e ↔ r = .error e := by
  refine ⟨map_eq_error, ?_⟩
  rintro rfl
  rfl

/-- Two steps fail with the first, or with the second behind a first
that succeeded. -/
theorem bind_eq_error {ε α β : Type} {r : Except ε α} {f : α → Except ε β} {e : ε}
    (h : r >>= f = .error e) : r = .error e ∨ ∃ x, r = .ok x ∧ f x = .error e := by
  cases r with
  | error e' => exact .inl (congrArg Except.error (Except.error.inj h))
  | ok x => exact .inr ⟨x, rfl, h⟩

/-- A failure that goes by another name is that of the step. -/
theorem mapError_eq_error {ε ε' α : Type} {f : ε → ε'} {r : Except ε α} {e' : ε'}
    (h : r.mapError f = .error e') : ∃ e, r = .error e ∧ f e = e' := by
  cases r with
  | error e => exact ⟨e, rfl, Except.error.inj h⟩
  | ok x => cases h

/-- Results and failures may be renamed in either order. -/
theorem mapError_map {ε ε' α β : Type} (r : Except ε α) (g : ε → ε') (f : α → β) :
    (r.map f).mapError g = (r.mapError g).map f := by
  cases r <;> rfl

theorem mapError_bind {ε ε' α β : Type} (r : Except ε α) (g : ε → ε') (f : α → Except ε β) :
    (r.bind f).mapError g = (r.mapError g).bind fun x => (f x).mapError g := by
  cases r <;> rfl

/-- What is said to succeed has a result. -/
theorem exists_of_isOk {ε α : Type} {r : Except ε α} (h : r.isOk = true) : ∃ x, r = .ok x := by
  cases r with
  | error e => cases h
  | ok x => exact ⟨x, rfl⟩

/-- What has a result as an option has it as an outcome. -/
theorem eq_ok_of_toOption {ε α : Type} {r : Except ε α} {x : α} (h : r.toOption = some x) :
    r = .ok x := by
  cases r with
  | error e => cases h
  | ok y => exact congrArg Except.ok (Option.some.inj h)

/-! ### Readers without their proofs -/

/-- The tree and the lexemes that a reader hands out, without the bound on
their number, which only termination needs. -/
def outcome {p : List Lexeme → Prop}
    (result : Except GrammarFault (Expr K × { rest : List Lexeme // p rest })) :
    Except GrammarFault (Expr K × List Lexeme) :=
  result.map fun (tree, rest) => (tree, rest.1)

section Readers

variable (operation : Token → Option (Expr K → Expr K → Expr K)) (unary operand : Reader K)

/-- A chain ends where no operator of its strength follows. -/
theorem outcome_chainFrom_of_head (left : Expr K) {rest : List Lexeme}
    (stops : ∀ lexeme ∈ rest.head?, operation lexeme.token = none) :
    outcome (Formula.chainFrom operation operand left rest) = .ok (left, rest) := by
  cases rest with
  | nil =>
      rw [Formula.chainFrom]
      rfl
  | cons lexeme after =>
      have none : operation lexeme.token = none := stops lexeme rfl
      rw [Formula.chainFrom]
      simp only [none]
      rfl

/-- An operator of its strength goes on with the chain, whose next operand is
joined from the right. -/
theorem outcome_chainFrom_cons (left : Expr K) {token : Token} (position : Nat)
    (after : List Lexeme) {combine : Expr K → Expr K → Expr K}
    (h : operation token = some combine) :
    outcome (Formula.chainFrom operation operand left (⟨token, position⟩ :: after)) =
      (outcome (operand after)).bind fun (right, rest) =>
        outcome (Formula.chainFrom operation operand (combine left right) rest) := by
  rw [Formula.chainFrom]
  simp only [h]
  cases operand after with
  | error fault => rfl
  | ok answer =>
      obtain ⟨right, rest, fewer⟩ := answer
      simp only [outcome, Except.map, Except.bind]
      cases Formula.chainFrom operation operand (combine left right) rest <;> rfl

/-- A chain is its first operand and then the rest of the chain. -/
theorem outcome_chain (lexemes : List Lexeme) :
    outcome (Formula.chain operation operand lexemes) =
      (outcome (operand lexemes)).bind fun (first, rest) =>
        outcome (Formula.chainFrom operation operand first rest) := by
  rw [Formula.chain]
  cases operand lexemes with
  | error fault => rfl
  | ok answer =>
      obtain ⟨first, rest, fewer⟩ := answer
      simp only [outcome, Except.map, Except.bind]
      cases Formula.chainFrom operation operand first rest <;> rfl

/-- A sum in parentheses is a sum, and a closing parenthesis behind it. -/
theorem outcome_closedSum (lexemes : List Lexeme) :
    outcome (Formula.closedSum unary lexemes) =
      (outcome (Formula.sumOf unary lexemes)).bind fun (tree, rest) =>
        match rest with
        | ⟨.closing, _⟩ :: after => .ok (tree, after)
        | rest => .error (Formula.unexpected rest) := by
  rw [Formula.closedSum]
  cases Formula.sumOf unary lexemes with
  | error fault => rfl
  | ok answer =>
      obtain ⟨tree, rest, fewer⟩ := answer
      cases rest with
      | nil => rfl
      | cons lexeme after =>
          obtain ⟨token, position⟩ := lexeme
          cases token <;> rfl

variable [Numeral K]

/-- An atom that begins with a parenthesis is a closed sum. -/
theorem outcome_atom_opening (position : Nat) (inner : List Lexeme) :
    outcome (Formula.atom unary (⟨.opening, position⟩ :: inner)) =
      outcome (Formula.closedSum unary inner) := by
  rw [Formula.atom]
  cases Formula.closedSum unary inner <;> rfl

/-- A name without a parenthesis is a leaf, a function that is not
called, or unknown. -/
theorem outcome_atom_ident (name : String) (position : Nat) (rest : List Lexeme) :
    outcome (Formula.atom unary (⟨.ident name, position⟩ :: rest)) =
      match Formula.leaf? name with
      | some tree => .ok (tree, rest)
      | none =>
        match Elementary.ofQualifiedName? name with
        | none => .error (.unknownName name position)
        | some f =>
          match rest with
          | ⟨.opening, _⟩ :: inner =>
            (outcome (Formula.closedSum unary inner)).map fun (tree, after) => (.call f tree, after)
          | _ => .error (.missingCall name position) := by
  rw [Formula.atom]
  cases Formula.leaf? (K := K) name with
  | some tree => rfl
  | none =>
      cases Elementary.ofQualifiedName? name with
      | none => rfl
      | some f =>
          rcases rest with _ | ⟨⟨token, opened⟩, inner⟩
          · rfl
          · cases token with
            | opening =>
                dsimp only
                cases Formula.closedSum unary inner <;> rfl
            | _ => rfl

/-- An atom that is a call is the function applied to a closed sum. -/
theorem outcome_atom_call (f : Elementary) (position opened : Nat) (inner : List Lexeme) :
    outcome (Formula.atom unary
        (⟨.ident f.qualifiedName, position⟩ :: ⟨.opening, opened⟩ :: inner)) =
      (outcome (Formula.closedSum unary inner)).map fun (tree, after) => (.call f tree, after) := by
  have noLeaf : Formula.leaf? (K := K) f.qualifiedName = none := by
    cases f <;> rfl
  have known : Elementary.ofQualifiedName? f.qualifiedName = some f := by
    cases f <;> rfl
  rw [outcome_atom_ident, noLeaf]
  simp only [known]

/-- A power is an atom and, behind a power sign, a signed exponent. -/
theorem outcome_power (lexemes : List Lexeme) :
    outcome (Formula.power unary lexemes) =
      (outcome (Formula.atom unary lexemes)).bind fun (base, rest) =>
        match rest with
        | ⟨.power, _⟩ :: after =>
          (outcome (unary after)).map fun (exponent, final) => (.pow base exponent, final)
        | rest => .ok (base, rest) := by
  rw [Formula.power]
  cases Formula.atom unary lexemes with
  | error fault => rfl
  | ok answer =>
      obtain ⟨base, rest, fewer⟩ := answer
      cases rest with
      | nil => rfl
      | cons lexeme after =>
          obtain ⟨token, position⟩ := lexeme
          cases token with
          | power =>
              simp only [outcome, Except.map, Except.bind]
              cases unary after <;> rfl
          | _ => rfl

variable [Scalar K]

/-- A minus sign makes the negative of the signed operand behind it. -/
theorem outcome_signed_minus (position : Nat) (rest : List Lexeme) :
    outcome (Formula.signed unary (⟨.minus, position⟩ :: rest)) =
      (outcome (unary rest)).map fun (operand, after) => (Formula.negative operand, after) := by
  rw [Formula.signed]
  cases unary rest <;> rfl

/-- A plus sign makes nothing of the signed operand behind it. -/
theorem outcome_signed_plus (position : Nat) (rest : List Lexeme) :
    outcome (Formula.signed unary (⟨.plus, position⟩ :: rest)) = outcome (unary rest) := by
  rw [Formula.signed]
  cases unary rest <;> rfl

/-- Reading all lexemes is reading a sum and then looking whether anything is left. -/
theorem parseLexemes_eq_bind (lexemes : List Lexeme) :
    Formula.parseLexemes (K := K) lexemes =
      (outcome (Formula.sumOf (Formula.unary Formula.nestingLimit) lexemes)).bind
        fun (tree, rest) =>
          match rest with
          | [] => .ok tree
          | rest => .error (Formula.unexpected rest) := by
  rw [Formula.parseLexemes]
  cases Formula.sumOf (K := K) (Formula.unary Formula.nestingLimit) lexemes with
  | error fault => rfl
  | ok answer =>
      obtain ⟨tree, rest, fewer⟩ := answer
      cases rest <;> rfl

end Readers

end Fluxion
