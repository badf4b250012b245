import Fluxion.Proofs.Qualification

/-!
# Powers of `e` as calls

A power of `e` becomes a call of the exponential.  Its argument is the exponent that the reader cuts
out by counting parentheses, and this is the exponent of the grammar: an operand of the grammar is
cut where it ends (`Derivation.cutOperand_eq`), and what is cut from a derivation is an operand of
the grammar (`exists_operand`).

So the step keeps what is derived.  A derivation is written with calls as a derivation with the same
tree (`Derivation.exponentiated`), and whatever can be read behind the step has been a derivation
before (`Derivation.stems`).  There a call of the exponential can have been a
power of `e`, which is no atom as the call is; but then no further power follows it.
-/

namespace Fluxion

open Formula (Token Lexeme)

/-- The names behind the step that writes powers of `e` as calls: `e` is a
constant like the other. -/
def Vocabulary.called : Vocabulary where
  function? := normal.function?
  constant? := surface.constant?
  isExponential _ := false
  variable_apart := qualified.variable_apart
  function_apart := qualified.function_apart

/-! ### What lexemes start with -/

/-- Lexemes whose first token is the given one.  What a step does is often
decided by that token. -/
def Starts (token : Token) (lexemes : List Lexeme) : Prop :=
  lexemes.head?.map Lexeme.token = some token

section Starts

variable {token : Token} {lexeme : Lexeme} {first second rest : List Lexeme}

@[simp] theorem not_starts_nil : ¬ Starts token [] := by simp [Starts]

@[simp] theorem starts_cons : Starts token (lexeme :: rest) ↔ lexeme.token = token := by
  simp [Starts]

/-- Lexemes that start with a token have it in front, at some place. -/
theorem Starts.exists_cons (h : Starts token rest) :
    ∃ position inner, rest = ⟨token, position⟩ :: inner := by
  rcases rest with _ | ⟨⟨first, position⟩, inner⟩
  · cases h
  · obtain rfl : first = token := starts_cons.1 h
    exact ⟨position, inner, rfl⟩

/-- Lexemes that no operand before them goes on into, be it a base or the name
of a function. -/
def Detached (rest : List Lexeme) : Prop := ¬ Starts .power rest ∧ ¬ Starts .opening rest

theorem detached_nil : Detached [] := ⟨not_starts_nil, not_starts_nil⟩

theorem detached_closing (position : Nat) : Detached (⟨.closing, position⟩ :: rest) := by
  simp [Detached]

theorem detached_operator {s : Strength} (operator : Operator s) (position : Nat) :
    Detached (⟨operator.token, position⟩ :: rest) := by
  cases operator <;> simp [Detached, Operator.token]

end Starts

/-! ### Exponents are cut where they end -/

section Cut

variable {lexemes base operand after rest : List Lexeme} {position : Nat}

theorem cutAtom_ident (name : String) (position : Nat) (noOpening : ¬ Starts .opening rest) :
    Formula.cutAtom (⟨.ident name, position⟩ :: rest) = .ok ⟨[⟨.ident name, position⟩], rest⟩ := by
  cases rest with
  | nil => rfl
  | cons lexeme others =>
      obtain ⟨token, place⟩ := lexeme
      cases token with
      | opening => exact absurd (starts_cons.2 rfl) noOpening
      | _ => rfl

theorem cutOperand_of_cutAtom (cut : Formula.cutAtom lexemes = .ok ⟨base, rest⟩)
    (noPower : ¬ Starts .power rest) : Formula.cutOperand lexemes = .ok ⟨base, rest⟩ := by
  unfold Formula.cutOperand
  split
  · simp [Formula.cutAtom] at cut
  · simp [Formula.cutAtom] at cut
  · split
    · next failed => simp [cut] at failed
    · next found =>
        rw [cut] at found
        cases found
        exact absurd (starts_cons.2 rfl) noPower
    · next found => rw [← found, cut]

/-- An atom that is raised is an operand together with its exponent. -/
theorem cutOperand_of_cutAtom_power
    (cut : Formula.cutAtom lexemes = .ok ⟨base, ⟨.power, position⟩ :: rest⟩) :
    Formula.cutOperand lexemes =
      (Formula.cutOperand rest).map (.prepend (base ++ [⟨.power, position⟩])) := by
  rw [Formula.cutOperand]
  split
  · next failed => simp [cut] at failed
  · next found =>
      rw [cut] at found
      cases found
      rfl
  · next other found =>
      rw [cut] at found
      cases found
      exact absurd rfl (other _ _ _)
  · rintro _ _ rfl
    simp [Formula.cutAtom] at cut
  · rintro _ _ rfl
    simp [Formula.cutAtom] at cut

/-- An atom that has been cut is cut again in front of other lexemes, unless
it is a name and these make it a call. -/
theorem cutAtom_append (cut : Formula.cutAtom lexemes = .ok ⟨base, after⟩) :
    Balanced base ∧ ∀ rest, (Starts .opening rest → Starts .opening after) →
      Formula.cutAtom (base ++ rest) = .ok ⟨base, rest⟩ := by
  rcases lexemes with _ | ⟨⟨token, position⟩, others⟩
  · cases cut
  cases token with
  | number text =>
      cases cut
      exact ⟨.single _ (by simp), fun rest _ => rfl⟩
  | opening =>
      cases found : Formula.cutGroup 0 others with
      | none => simp [Formula.cutAtom, found] at cut
      | some group =>
          obtain ⟨closed, closing, matched, -⟩ := exists_of_cutGroup found
          simp only [Formula.cutAtom, found, closing] at cut
          cases cut
          refine ⟨matched.group position closed, fun rest _ => ?_⟩
          simp [Formula.cutAtom, matched.cutGroup_eq]
  | ident name =>
      by_cases opened : Starts .opening others
      · obtain ⟨place, inner, rfl⟩ := opened.exists_cons
        cases found : Formula.cutGroup 0 inner with
        | none => simp [Formula.cutAtom, found] at cut
        | some group =>
            obtain ⟨closed, closing, matched, -⟩ := exists_of_cutGroup found
            simp only [Formula.cutAtom, found, closing] at cut
            cases cut
            refine ⟨(matched.group place closed).cons (by simp), fun rest _ => ?_⟩
            simp [Formula.cutAtom, matched.cutGroup_eq]
      · rw [cutAtom_ident name position opened] at cut
        cases cut
        exact ⟨.single _ (by simp), fun rest same => cutAtom_ident name position (mt same opened)⟩
  | _ => cases cut

/-- A cut operand is balanced, is not raised any further, and is cut again in
front of other lexemes that neither raise it nor call it. -/
theorem cutOperand_append (cut : Formula.cutOperand lexemes = .ok ⟨operand, after⟩) :
    Balanced operand ∧ ¬ Starts .power after ∧ ∀ rest, ¬ Starts .power rest →
      (Starts .opening rest → Starts .opening after) →
        Formula.cutOperand (operand ++ rest) = .ok ⟨operand, rest⟩ := by
  fun_induction Formula.cutOperand lexemes generalizing operand after with
  | case1 position others ih | case2 position others ih =>
      obtain ⟨inner, found, same⟩ := map_eq_ok cut
      cases same
      obtain ⟨matched, ends, again⟩ := ih found
      refine ⟨matched.cons (by simp), ends, fun rest noPower opens => ?_⟩
      show Formula.cutOperand (_ :: (inner.lexemes ++ rest)) = _
      rw [Formula.cutOperand, again rest noPower opens]
      rfl
  | case3 => cases cut
  | case4 lexemes _ _ base position others atomCut ih =>
      obtain ⟨inner, found, same⟩ := map_eq_ok cut
      cases same
      obtain ⟨matchedBase, againBase⟩ := cutAtom_append atomCut
      obtain ⟨matched, ends, again⟩ := ih found
      have power : Balanced (base ++ [⟨.power, position⟩]) :=
        matchedBase.append (.single _ (by simp))
      refine ⟨power.append matched, ends, fun rest noPower opens => ?_⟩
      have step := cutOperand_of_cutAtom_power
        (againBase (⟨.power, position⟩ :: (inner.lexemes ++ rest)) (by simp))
      rw [again rest noPower opens] at step
      simpa [Formula.Operand.prepend, Except.map] using step
  | case5 lexemes _ _ atom last atomCut =>
      cases cut
      obtain ⟨matched, again⟩ := cutAtom_append atomCut
      refine ⟨matched, ?_, fun rest noPower opens => ?_⟩
      · intro power
        obtain ⟨position, others, rfl⟩ := power.exists_cons
        exact last _ _ _ rfl
      · exact cutOperand_of_cutAtom (again rest opens) noPower

end Cut

namespace Derivation

variable {v : Vocabulary} {r : Rule} {rest : List Lexeme}

/-- An atom of the grammar is cut where it ends, unless a parenthesis
makes a call of it. -/
theorem cutAtom_eq (d : Derivation v .atom) (noOpening : ¬ Starts .opening rest) :
    Formula.cutAtom (d.lexemes ++ rest) = .ok ⟨d.lexemes, rest⟩ := by
  cases d with
  | number text position => rfl
  | «variable» position => exact cutAtom_ident _ position noOpening
  | constant name position known => exact cutAtom_ident name position noOpening
  | call name position opened closed known argument =>
      have cut := argument.balanced.cutGroup_eq closed rest
      rw [lexemes, List.cons_append, List.cons_append, List.append_assoc, List.singleton_append]
      simp [Formula.cutAtom, cut]
  | group opened closed inside =>
      have cut := inside.balanced.cutGroup_eq closed rest
      rw [lexemes, List.cons_append, List.append_assoc, List.singleton_append]
      simp [Formula.cutAtom, cut]

/-- An operand of the grammar is cut where it ends.  So what the step takes
for an exponent is what the grammar takes for one. -/
theorem cutOperand_eq (d : Derivation v r) (operand : r = .unary ∨ r = .power)
    (detached : Detached rest) :
    Formula.cutOperand (d.lexemes ++ rest) = .ok ⟨d.lexemes, rest⟩ := by
  induction d with
  | unraised a => exact cutOperand_of_cutAtom (a.cutAtom_eq detached.2) detached.1
  | raised base position exponent _ ih =>
      have power : ¬ Starts .opening (⟨.power, position⟩ :: (exponent.lexemes ++ rest)) := by simp
      have cut := cutOperand_of_cutAtom_power (base.cutAtom_eq power)
      rw [ih (.inl rfl)] at cut
      rw [lexemes, List.append_assoc]
      refine cut.trans (congrArg (fun lexemes => Except.ok (Formula.Operand.mk lexemes rest)) ?_)
      rw [List.append_assoc]
      rfl
  | unsigned p ih => exact ih (.inr rfl)
  | signed sign position u ih =>
      rw [lexemes, List.cons_append]
      cases sign with
      | plus | minus =>
          rw [Operator.token, Formula.cutOperand, ih (.inl rfl)]
          rfl
  | _ => simp at operand

/-- What is no atom and no power starts with an operand. -/
theorem exists_first (d : Derivation v r) (rule : r ≠ .atom ∧ r ≠ .power) :
    ∃ (u : Derivation v .unary) (tail : List Lexeme),
      d.lexemes = u.lexemes ++ tail ∧ Detached tail := by
  induction d with
  | unsigned p => exact ⟨.unsigned p, [], (List.append_nil _).symm, detached_nil⟩
  | signed sign position u =>
      exact ⟨.signed sign position u, [], (List.append_nil _).symm, detached_nil⟩
  | @single s operand ih => exact ih (by cases s <;> simp [Strength.operand])
  | extended left operator position right ih =>
      obtain ⟨u, tail, eq, detached⟩ := ih (by simp)
      refine ⟨u, tail ++ ⟨operator.token, position⟩ :: right.lexemes, ?_, ?_⟩
      · rw [lexemes, eq, List.append_assoc]
      · cases tail with
        | nil => exact detached_operator operator position
        | cons => exact detached
  | _ => simp at rule

end Derivation

/-! ### Groups that are all there is -/

section Ungrouped

variable {lexemes rest : List Lexeme}

theorem ungrouped_cons {lexeme : Lexeme} (h : lexeme.token ≠ .opening) (rest : List Lexeme) :
    Formula.ungrouped (lexeme :: rest) = lexeme :: rest := by
  rw [Formula.ungrouped]
  rintro position others ⟨⟩
  exact h rfl

theorem ungrouped_group (h : Balanced lexemes) (opened closed : Nat) :
    Formula.ungrouped (⟨.opening, opened⟩ :: (lexemes ++ [⟨.closing, closed⟩])) = lexemes := by
  rw [Formula.ungrouped, h.cutGroup_eq closed []]

/-- A group that something follows is not all there is, and keeps its parentheses. -/
theorem ungrouped_group_append (h : Balanced lexemes) (opened closed : Nat) (next : Lexeme)
    (rest : List Lexeme) :
    Formula.ungrouped (⟨.opening, opened⟩ :: (lexemes ++ ⟨.closing, closed⟩ :: next :: rest)) =
      ⟨.opening, opened⟩ :: (lexemes ++ ⟨.closing, closed⟩ :: next :: rest) := by
  rw [Formula.ungrouped, h.cutGroup_eq closed (next :: rest)]

/-- Either nothing is taken off, or one pair of matching parentheses
around everything. -/
theorem ungrouped_cases (lexemes : List Lexeme) :
    Formula.ungrouped lexemes = lexemes ∨ ∃ opened closed,
      lexemes = ⟨.opening, opened⟩ :: (Formula.ungrouped lexemes ++ [⟨.closing, closed⟩]) ∧
        Balanced (Formula.ungrouped lexemes) := by
  unfold Formula.ungrouped
  split
  · next opened rest =>
    split
    · next inside closing cut =>
      obtain ⟨closed, rfl, matched, eq⟩ := exists_of_cutGroup cut
      exact .inr ⟨opened, closed, congrArg _ eq, matched⟩
    · exact .inl rfl
  · exact .inl rfl

/-- Taking the parentheses off a group keeps the lexemes balanced. -/
theorem balanced_ungrouped (h : Balanced lexemes) : Balanced (Formula.ungrouped lexemes) := by
  rcases ungrouped_cases lexemes with same | ⟨opened, closed, -, matched⟩
  · rwa [same]
  · exact matched

namespace Derivation

variable {v : Vocabulary} {r : Rule}

/-- A derivation that more lexemes follow is no group of its own, so no
parentheses are taken off it. -/
theorem ungrouped_append (d : Derivation v r) (next : Lexeme) (rest : List Lexeme) :
    Formula.ungrouped (d.lexemes ++ next :: rest) = d.lexemes ++ next :: rest := by
  induction d generalizing next rest with
  | number | «variable» | constant | call => exact ungrouped_cons (by simp) _
  | group opened closed inside ih =>
      rw [lexemes, List.cons_append, List.append_assoc]
      exact ungrouped_group_append inside.balanced opened closed next rest
  | unraised _ ih | unsigned _ ih | single _ ih => exact ih next rest
  | raised base position exponent ih =>
      rw [lexemes, List.append_assoc]
      exact ih _ _
  | signed sign position operand ih => exact ungrouped_cons sign.token_ne_parenthesis.1 _
  | extended left operator position right ih =>
      rw [lexemes, List.append_assoc]
      exact ih _ _

/-- An exponent as the argument of a call: a group loses its parentheses. -/
def argument : Derivation v .unary → Derivation v .sum
  | .unsigned (.unraised (.group _ _ inside)) => inside
  | operand => .single (.single operand)

/-- The argument of a derivation is written as the ungrouped exponent. -/
theorem lexemes_argument (u : Derivation v .unary) :
    u.argument.lexemes = Formula.ungrouped u.lexemes := by
  -- only a group that no power follows is taken apart
  cases u with
  | signed sign position u => exact (ungrouped_cons sign.token_ne_parenthesis.1 _).symm
  | unsigned p =>
      cases p with
      | raised base position exponent => exact (base.ungrouped_append _ _).symm
      | unraised a =>
          cases a with
          | group opened closed inside => exact (ungrouped_group inside.balanced opened closed).symm
          | _ => exact (ungrouped_cons (by simp) _).symm

/-- Taking the parentheses off an exponent does not change its tree. -/
theorem tree_argument {K : Type} [Scalar K] [Numeral K] (u : Derivation v .unary) :
    u.argument.tree (K := K) = u.tree := by
  cases u with
  | signed => rfl
  | unsigned p =>
      cases p with
      | raised => rfl
      | unraised a => cases a <;> rfl

end Derivation

end Ungrouped

/-! ### The step as a relation -/

/-- What writing powers of `e` as calls makes of lexemes.  The step is a
recursion on lengths; as a relation it is open to induction. -/
inductive Exponentiates : List Lexeme → List Lexeme → Prop
  | nil : Exponentiates [] []
  | keep {rest result : List Lexeme} (lexeme : Lexeme)
      (other : lexeme.token = .ident "e" → ¬ Starts .power rest)
      (h : Exponentiates rest result) : Exponentiates (lexeme :: rest) (lexeme :: result)
  | power {exponent operand after argument result : List Lexeme} (position place : Nat)
      (cut : Formula.cutOperand exponent = .ok ⟨operand, after⟩)
      (hoperand : Exponentiates (Formula.ungrouped operand) argument)
      (hafter : Exponentiates after result) :
      Exponentiates (⟨.ident "e", position⟩ :: ⟨.power, place⟩ :: exponent)
        (⟨.ident Elementary.exp.qualifiedName, position⟩ :: ⟨.opening, position⟩
          :: (argument ++ ⟨.closing, position⟩ :: result))

section Step

variable {lexemes result : List Lexeme}

/-- Where the step succeeds, the relation holds.  The induction is on the
number of lexemes, since an exponent is rewritten by itself. -/
theorem exponentiates_of_withExponentials
    (done : Formula.withExponentials lexemes = .ok result) : Exponentiates lexemes result := by
  fun_induction Formula.withExponentials lexemes generalizing result with
  | case1 => cases done
  | case2 position place exponent operand cut ihoperand ihafter =>
      obtain ⟨argument, doneOperand, done⟩ := bind_eq_ok done
      obtain ⟨after, doneAfter, done⟩ := bind_eq_ok done
      cases done
      exact .power position place cut (ihoperand doneOperand) (ihafter doneAfter)
  | case3 lexeme rest other ih =>
      obtain ⟨after, doneAfter, done⟩ := bind_eq_ok done
      cases done
      refine .keep lexeme ?_ (ih doneAfter)
      intro e power
      obtain ⟨token, position⟩ := lexeme
      obtain ⟨place, others, rfl⟩ := power.exists_cons
      obtain rfl : token = .ident "e" := e
      exact other _ _ _ rfl rfl
  | case4 =>
      cases done
      exact .nil

/-- Where the relation holds, the step succeeds with its result. -/
theorem withExponentials_eq (h : Exponentiates lexemes result) :
    Formula.withExponentials lexemes = .ok result := by
  induction h with
  | nil => rw [Formula.withExponentials]
  | keep lexeme other _ ih =>
      rw [Formula.withExponentials, ih]
      · rfl
      · rintro position place exponent rfl rfl
        exact other rfl (starts_cons.2 rfl)
  | power position place cut _ _ ihoperand ihafter =>
      rw [Formula.withExponentials]
      split
      · next failed => simp [cut] at failed
      · next operand found =>
          rw [cut] at found
          cases found
          rw [ihoperand, ihafter]
          rfl

/-- The relation is what the step does.  From here on the recursion on lengths
is not needed any more. -/
theorem withExponentials_eq_ok_iff :
    Formula.withExponentials lexemes = .ok result ↔ Exponentiates lexemes result :=
  ⟨exponentiates_of_withExponentials, withExponentials_eq⟩

end Step

namespace Exponentiates

variable {first second left right lexemes result : List Lexeme} {token : Token} {position : Nat}

/-- Lexemes up to the end of a group are rewritten apart from those behind it. -/
theorem append (hfirst : Exponentiates first left)
    (hsecond : Exponentiates (⟨.closing, position⟩ :: second) right) :
    Exponentiates (first ++ ⟨.closing, position⟩ :: second) (left ++ right) := by
  -- the end of a group starts nothing that could go on with the lexemes before it
  have starts {token : Token} {rest : List Lexeme}
      (h : Starts token (rest ++ ⟨.closing, position⟩ :: second)) (noClosing : token ≠ .closing) :
      Starts token rest := by
    cases rest with
    | nil => exact absurd (starts_cons.1 h).symm noClosing
    | cons => exact h
  induction hfirst with
  | nil => exact hsecond
  | keep lexeme other _ ih =>
      exact .keep lexeme (fun e power => other e (starts power (by simp))) ih
  | @power exponent operand after argument result place position cut hoperand _ _ ih =>
      obtain ⟨-, ends, again⟩ := cutOperand_append cut
      have longer := again (after ++ _) (fun power => ends (starts power (by simp)))
        fun opening => starts opening (by simp)
      rw [← List.append_assoc, ← Formula.eq_of_cutOperand cut] at longer
      have step := Exponentiates.power place position longer hoperand ih
      simpa only [List.append_assoc, List.cons_append] using step

/-- Lexemes other than the name of the exponential stem from themselves.  The
step copies them one by one. -/
theorem exists_rest (h : Exponentiates lexemes (⟨token, position⟩ :: result))
    (other : token ≠ .ident Elementary.exp.qualifiedName) :
    ∃ rest, lexemes = ⟨token, position⟩ :: rest ∧
      (token = .ident "e" → ¬ Starts .power rest) ∧ Exponentiates rest result := by
  cases h with
  | keep _ noPower h => exact ⟨_, rfl, noPower, h⟩
  | power => exact absurd rfl other

/-- A name stems from itself, or it is that of the exponential and stems from
a power of `e`. -/
theorem ident_cases {name : String}
    (h : Exponentiates lexemes (⟨.ident name, position⟩ :: result)) :
    (∃ rest, lexemes = ⟨.ident name, position⟩ :: rest ∧ Exponentiates rest result) ∨
      ∃ (place : Nat) (exponent operand after argument result' : List Lexeme),
        lexemes = ⟨.ident "e", position⟩ :: ⟨.power, place⟩ :: exponent ∧
          result = ⟨.opening, position⟩ :: (argument ++ ⟨.closing, position⟩ :: result') ∧
          Formula.cutOperand exponent = .ok ⟨operand, after⟩ ∧
          Exponentiates (Formula.ungrouped operand) argument ∧ Exponentiates after result' := by
  cases h with
  | keep _ _ h => exact .inl ⟨_, rfl, h⟩
  | power _ place cut hoperand hafter =>
      exact .inr ⟨place, _, _, _, _, _, rfl, rfl, cut, hoperand, hafter⟩

end Exponentiates

/-! ### What is derived stays derived -/

namespace Derivation

variable {r : Rule}

/-- The place of a name whose powers are written for the exponential.  Only a
bare name has one. -/
def exponentialPlace? {v : Vocabulary} {r : Rule} : Derivation v r → Option Nat
  | constant name position _ => if v.isExponential name then some position else none
  | _ => none

/-- A derivation, with powers of `e` written as calls.  Everything else is
kept, so the result is a derivation again. -/
def exponentiated {r : Rule} : Derivation .qualified r → Derivation .called r
  | number text position => .number text position
  | «variable» position => .variable position
  | constant name position known => .constant name position known
  | call name position opened closed known argument =>
      .call name position opened closed known argument.exponentiated
  | group opened closed inside => .group opened closed inside.exponentiated
  | unraised operand => .unraised operand.exponentiated
  | raised base position exponent =>
      match base.exponentialPlace? with
      | some place =>
          .unraised (.call Elementary.exp.qualifiedName place place place
            (Vocabulary.function?_qualifiedName .exp) exponent.exponentiated.argument)
      | none => .raised base.exponentiated position exponent.exponentiated
  | unsigned operand => .unsigned operand.exponentiated
  | signed sign position operand => .signed sign position operand.exponentiated
  | single operand => .single operand.exponentiated
  | extended left operator position right =>
      .extended left.exponentiated operator position right.exponentiated

/-- A base is that of an exponential exactly if it has a place as the name
`e`.  The place is what the call is written at. -/
theorem isExponentialBase_eq {v : Vocabulary} (d : Derivation v r) :
    d.isExponentialBase = d.exponentialPlace?.isSome := by
  cases d with
  | constant name position known =>
      rw [isExponentialBase, exponentialPlace?]
      cases v.isExponential name <;> rfl
  | _ => rfl

/-- The base of an exponential is the name `e` and nothing else. -/
theorem lexemes_eq_of_exponentialPlace? {d : Derivation .qualified r} {place : Nat}
    (h : d.exponentialPlace? = some place) : d.lexemes = [⟨.ident "e", place⟩] := by
  cases d with
  | constant name position known =>
      obtain ⟨e, same⟩ := Option.ite_some_none_eq_some.1 h
      rw [lexemes, same, beq_iff_eq.1 e]
  | _ => cases h

/-- Writing powers of `e` as calls does not change the tree, as such powers
denote calls from the start. -/
theorem tree_exponentiated {K : Type} [Scalar K] [Numeral K] (d : Derivation .qualified r) :
    d.exponentiated.tree (K := K) = d.tree := by
  induction d with
  | number | «variable» | constant => rfl
  | @call f name position opened closed known argument ih => exact congrArg f.apply ih
  | group _ _ _ ih | unraised _ ih | unsigned _ ih | single _ ih => exact ih
  | raised base position exponent ihbase ihexponent =>
      rw [exponentiated, tree, isExponentialBase_eq]
      cases base.exponentialPlace? with
      | some place =>
          show Expr.call Elementary.exp exponent.exponentiated.argument.tree = _
          rw [tree_argument, ihexponent]
          rfl
      | none =>
          have ordinary : base.exponentiated.isExponentialBase = false := by
            cases base.exponentiated <;> rfl
          show (if base.exponentiated.isExponentialBase then _ else _) = _
          rw [ordinary, ihbase, ihexponent]
          rfl
  | signed sign position operand ih => rw [exponentiated, tree, tree, ih]
  | extended left operator position right ihleft ihright =>
      rw [exponentiated, tree, tree, ihleft, ihright]

/-- What the step makes of a derivation, in front of other lexemes and as an
exponent of `e`. -/
structure Exponentiated (d : Derivation .qualified r) : Prop where
  append {rest result : List Lexeme} :
    (r ≠ .atom ∨ d.isExponentialBase = true → Detached rest) → Exponentiates rest result →
      Exponentiates (d.lexemes ++ rest) (d.exponentiated.lexemes ++ result)
  argument :
    Exponentiates (Formula.ungrouped d.lexemes) (Formula.ungrouped d.exponentiated.lexemes)

namespace Exponentiated

variable {d : Derivation .qualified r} {inside : Derivation .qualified .sum}

/-- At the end of the lexemes a derivation is rewritten as a whole. -/
theorem whole (h : Exponentiated d) : Exponentiates d.lexemes d.exponentiated.lexemes := by
  have step := h.append (fun _ => detached_nil) .nil
  rwa [List.append_nil, List.append_nil] at step

/-- A derivation that is no group is its own argument. -/
theorem of_append
    (append : ∀ {rest result : List Lexeme},
      (r ≠ .atom ∨ d.isExponentialBase = true → Detached rest) → Exponentiates rest result →
        Exponentiates (d.lexemes ++ rest) (d.exponentiated.lexemes ++ result))
    (alone : Formula.ungrouped d.lexemes = d.lexemes)
    (alone' : Formula.ungrouped d.exponentiated.lexemes = d.exponentiated.lexemes) :
    Exponentiated d where
  append := append
  argument := by
    have step := append (fun _ => detached_nil) .nil
    rwa [List.append_nil, List.append_nil, ← alone, ← alone'] at step

/-- What stands in a group is rewritten in front of its closing parenthesis. -/
theorem inGroup (h : Exponentiated inside) (opened closed : Nat) {rest result : List Lexeme}
    (after : Exponentiates rest result) :
    Exponentiates (⟨.opening, opened⟩ :: (inside.lexemes ++ ⟨.closing, closed⟩ :: rest))
      (⟨.opening, opened⟩ :: (inside.exponentiated.lexemes ++ ⟨.closing, closed⟩ :: result)) :=
  .keep _ (by simp) (h.append (fun _ => detached_closing closed) (.keep _ (by simp) after))

/-- The property passes from the content to the group. -/
theorem group (h : Exponentiated inside) (opened closed : Nat) :
    Exponentiated (.group opened closed inside) where
  append _ after := by
    have step := h.inGroup opened closed after
    simpa [lexemes, exponentiated] using step
  argument := by
    rw [lexemes, exponentiated, lexemes, ungrouped_group inside.balanced,
      ungrouped_group inside.exponentiated.balanced]
    exact h.whole

theorem call {f : Formula.SurfaceFunction} (h : Exponentiated inside) (name : String)
    (position opened closed : Nat) (known : Vocabulary.qualified.function? name = some f) :
    Exponentiated (.call name position opened closed known inside) := by
  refine of_append (fun _ after => ?_) (ungrouped_cons (by simp) _) (ungrouped_cons (by simp) _)
  have step := Exponentiates.keep ⟨.ident name, position⟩ (by simp) (h.inGroup opened closed after)
  simpa [lexemes, exponentiated] using step

/-- The property passes from base and exponent to the power.  This is the case
in which lexemes change. -/
theorem raised {base : Derivation .qualified .atom} {exponent : Derivation .qualified .unary}
    (hbase : Exponentiated base) (hexponent : Exponentiated exponent) (position : Nat) :
    Exponentiated (.raised base position exponent) := by
  have alone := base.ungrouped_append ⟨.power, position⟩ exponent.lexemes
  cases found : base.exponentialPlace? with
  | some place =>
      have name := lexemes_eq_of_exponentialPlace? found
      have result : (Derivation.raised base position exponent).exponentiated.lexemes =
          ⟨.ident Elementary.exp.qualifiedName, place⟩ :: ⟨.opening, place⟩
            :: (Formula.ungrouped exponent.exponentiated.lexemes ++ [⟨.closing, place⟩]) := by
        rw [exponentiated, found, ← lexemes_argument]
        rfl
      refine of_append (fun apart after => ?_) alone (by rw [result, ungrouped_cons (by simp)])
      have cut := exponent.cutOperand_eq (.inl rfl) (apart (.inl (by simp)))
      have step := Exponentiates.power place position cut hexponent.argument after
      simpa [result, lexemes, name] using step
  | none =>
      have result : (Derivation.raised base position exponent).exponentiated =
          Derivation.raised base.exponentiated position exponent.exponentiated := by
        rw [exponentiated, found]
      have ordinary : base.isExponentialBase = false := by
        rw [isExponentialBase_eq, found]
        rfl
      refine of_append (fun apart after => ?_) alone ?_
      · have power := hexponent.append (fun _ => apart (.inl (by simp))) after
        have step := hbase.append (by simp [ordinary]) (.keep ⟨.power, position⟩ (by simp) power)
        simpa [result, lexemes] using step
      · rw [result]
        exact base.exponentiated.ungrouped_append _ _

/-- The property passes from an operand to the operand with a sign. -/
theorem signed {operand : Derivation .qualified .unary} (h : Exponentiated operand)
    (sign : Operator .sum) (position : Nat) : Exponentiated (.signed sign position operand) := by
  refine of_append (fun apart after => ?_) (ungrouped_cons sign.token_ne_parenthesis.1 _)
    (ungrouped_cons sign.token_ne_parenthesis.1 _)
  have step := h.append (fun _ => apart (.inl (by simp))) after
  exact .keep _ (fun e => absurd e (sign.token_ne_ident _)) step

/-- The property passes from both operands to the joined ones. -/
theorem extended {s : Strength} {left : Derivation .qualified (.joined s)}
    {right : Derivation .qualified s.operand} (hleft : Exponentiated left)
    (hright : Exponentiated right) (operator : Operator s) (position : Nat) :
    Exponentiated (.extended left operator position right) := by
  refine of_append (fun apart after => ?_) (left.ungrouped_append _ _)
    (left.exponentiated.ungrouped_append _ _)
  have behind := hright.append (fun _ => apart (.inl (by simp))) after
  have step := hleft.append (fun _ => detached_operator operator position)
    (.keep _ (fun e => absurd e (operator.token_ne_ident _)) behind)
  simpa [lexemes, exponentiated] using step

end Exponentiated

/-- Every derivation is rewritten as described, by induction with one
case for each rule. -/
theorem isExponentiated (d : Derivation .qualified r) : Exponentiated d := by
  induction d with
  | number text position =>
      refine .of_append (fun _ after => ?_) (ungrouped_cons (by simp) _)
        (ungrouped_cons (by simp) _)
      exact .keep _ (by simp) after
  | «variable» position =>
      refine .of_append (fun _ after => ?_) (ungrouped_cons (by simp) _)
        (ungrouped_cons (by simp) _)
      exact .keep _ (by simp [variableName]) after
  | constant name position known =>
      refine .of_append (fun apart after => ?_) (ungrouped_cons (by simp) _)
        (ungrouped_cons (by simp) _)
      refine .keep _ ?_ after
      rintro ⟨⟩
      exact (apart (.inr rfl)).1
  | call name position opened closed known argument ih =>
      exact ih.call name position opened closed known
  | group opened closed inside ih => exact ih.group opened closed
  | raised base position exponent ihbase ihexponent => exact ihbase.raised ihexponent position
  | unraised operand ih | unsigned operand ih | single operand ih =>
      exact ⟨fun apart => ih.append fun _ => apart (.inl (by simp)), ih.argument⟩
  | signed sign position operand ih => exact ih.signed sign position
  | extended left operator position right ihleft ihright =>
      exact ihleft.extended ihright operator position

/-- What has been cut as an exponent of `e` is an operand of the grammar if
its argument is a sum. -/
theorem exists_operand {v : Vocabulary} {lexemes operand after : List Lexeme}
    (cut : Formula.cutOperand lexemes = .ok ⟨operand, after⟩) (s : Derivation v .sum)
    (argument : s.lexemes = Formula.ungrouped operand) :
    ∃ u : Derivation v .unary, u.lexemes = operand := by
  rcases ungrouped_cases operand with same | ⟨opened, closed, same, -⟩
  · -- the first operand of the sum is cut just as well, so it is all of the sum
    obtain ⟨u, tail, first, detached⟩ := s.exists_first (by simp)
    have cutFirst := u.cutOperand_eq (.inl rfl) detached
    have cutAll := (cutOperand_append cut).2.2 [] not_starts_nil (fun opening => by cases opening)
    rw [List.append_nil] at cutAll
    rw [← first, argument, same, cutAll] at cutFirst
    cases cutFirst
    exact ⟨u, rfl⟩
  · exact ⟨.unsigned (.unraised (.group opened closed s)), by rw [same, ← argument]; rfl⟩

/-- Where lexemes come from that a derivation of a rule was read from: a derivation of
the rule, or, for an atom, a power that no further power follows. -/
inductive Stems (lexemes result : List Lexeme) : Rule → Prop
  | same {r : Rule} {rest : List Lexeme} (s : Derivation .qualified r)
      (eq : lexemes = s.lexemes ++ rest) (after : Exponentiates rest result)
      (ends : s.isExponentialBase = true → ¬ Starts .power rest) : Stems lexemes result r
  | power {rest : List Lexeme} (s : Derivation .qualified .power)
      (eq : lexemes = s.lexemes ++ rest) (after : Exponentiates rest result)
      (ends : ¬ Starts .power rest) : Stems lexemes result .atom

namespace Stems

variable {lexemes result : List Lexeme}

/-- What an atom stems from counts as a power: an atom does, and so does a
power of `e`. -/
theorem exists_power (h : Stems lexemes result .atom) :
    ∃ (s : Derivation .qualified .power) (rest : List Lexeme),
      lexemes = s.lexemes ++ rest ∧ Exponentiates rest result := by
  cases h with
  | same s eq after => exact ⟨.unraised s, _, eq, after⟩
  | power s eq after => exact ⟨s, _, eq, after⟩

/-- A base is an atom from the start, since the step never writes a power. -/
theorem exists_base {position : Nat} (h : Stems lexemes (⟨.power, position⟩ :: result) .atom) :
    ∃ (s : Derivation .qualified .atom) (rest : List Lexeme),
      lexemes = s.lexemes ++ ⟨.power, position⟩ :: rest ∧ Exponentiates rest result := by
  cases h with
  | same s eq after =>
      obtain ⟨rest, rfl, -, after⟩ := after.exists_rest (by simp)
      exact ⟨s, rest, eq, after⟩
  | power s eq after ends =>
      obtain ⟨rest, rfl, -, after⟩ := after.exists_rest (by simp)
      exact absurd (starts_cons.2 rfl) ends

/-- What is no atom stems from a derivation of its own rule. -/
theorem exists_of_ne_atom (h : Stems lexemes result r) (other : r ≠ .atom) :
    ∃ (s : Derivation .qualified r) (rest : List Lexeme),
      lexemes = s.lexemes ++ rest ∧ Exponentiates rest result := by
  cases h with
  | same s eq after => exact ⟨s, _, eq, after⟩
  | power => exact absurd rfl other

/-- What stands in front of the end of a group. -/
theorem exists_inside {closed : Nat} (h : Stems lexemes (⟨.closing, closed⟩ :: result) .sum) :
    ∃ (s : Derivation .qualified .sum) (rest : List Lexeme),
      lexemes = s.lexemes ++ ⟨.closing, closed⟩ :: rest ∧ Exponentiates rest result := by
  obtain ⟨s, _, eq, after⟩ := h.exists_of_ne_atom (by simp)
  obtain ⟨rest, rfl, -, after⟩ := after.exists_rest (by simp)
  exact ⟨s, rest, eq, after⟩

/-- A call stems from a call, or from a power of `e`. -/
theorem call {argument : Derivation .called .sum}
    (ih : ∀ {lexemes result : List Lexeme},
      Exponentiates lexemes (argument.lexemes ++ result) → Stems lexemes result .sum)
    {f : Formula.SurfaceFunction} {name : String} {position opened closed : Nat}
    (known : Vocabulary.qualified.function? name = some f)
    (h : Exponentiates lexemes (⟨.ident name, position⟩ :: ⟨.opening, opened⟩
      :: (argument.lexemes ++ ⟨.closing, closed⟩ :: result))) : Stems lexemes result .atom := by
  rcases h.ident_cases with ⟨_, rfl, behind⟩ |
    ⟨place, exponent, operand, after, written, result', rfl, same, cut, hoperand, hafter⟩
  · obtain ⟨_, rfl, -, inner⟩ := behind.exists_rest (by simp)
    obtain ⟨s, rest, rfl, after⟩ := (ih inner).exists_inside
    refine .same (.call name position opened closed known s) ?_ after (fun e => by cases e)
    rw [Derivation.lexemes, List.cons_append, List.cons_append, List.append_assoc,
      List.singleton_append]
  · obtain ⟨-, same⟩ := List.cons.inj same
    have inner := hoperand.append (.keep ⟨.closing, position⟩ (by simp) hafter)
    rw [← same] at inner
    obtain ⟨s, rest, eq, last⟩ := (ih inner).exists_inside
    obtain ⟨matched, ends, -⟩ := cutOperand_append cut
    obtain ⟨inside, rfl, rfl⟩ := (balanced_ungrouped matched).eq_of_append_eq s.balanced eq
    obtain ⟨u, rfl⟩ := exists_operand cut s inside.symm
    refine .power (.raised (.constant "e" position rfl) place u) ?_ last ends
    rw [Formula.eq_of_cutOperand cut]
    rfl

end Stems

/-- What is read behind the step stems from derivations.  The induction is on
the derivation that was read, with one case for each rule. -/
theorem stems (d : Derivation .called r) {lexemes result : List Lexeme}
    (h : Exponentiates lexemes (d.lexemes ++ result)) : Stems lexemes result r := by
  induction d generalizing lexemes result with
  | number text position =>
      obtain ⟨rest, rfl, -, after⟩ := h.exists_rest (by simp)
      exact .same (.number text position) rfl after (fun e => by cases e)
  | «variable» position =>
      obtain ⟨rest, rfl, -, after⟩ := h.exists_rest (by decide)
      exact .same (.variable position) rfl after (fun e => by cases e)
  | constant name position known =>
      have other : name ≠ Elementary.exp.qualifiedName := by
        rintro rfl
        cases known
      obtain ⟨rest, rfl, noPower, after⟩ := h.exists_rest (by simpa using other)
      refine .same (.constant name position known) rfl after fun e => noPower ?_
      rw [beq_iff_eq.1 e]
  | call name position opened closed known argument ih =>
      rw [Derivation.lexemes, List.cons_append, List.cons_append, List.append_assoc] at h
      exact .call ih known h
  | group opened closed inside ih =>
      rw [Derivation.lexemes, List.cons_append, List.append_assoc] at h
      obtain ⟨_, rfl, -, inner⟩ := h.exists_rest (by simp)
      obtain ⟨s, rest, rfl, after⟩ := (ih inner).exists_inside
      refine .same (.group opened closed s) ?_ after (fun e => by cases e)
      rw [Derivation.lexemes, List.cons_append, List.append_assoc, List.singleton_append]
  | unraised operand ih =>
      obtain ⟨s, rest, rfl, after⟩ := (ih h).exists_power
      exact .same s rfl after (by cases s <;> simp [isExponentialBase])
  | raised base position exponent ihbase ihexponent =>
      rw [Derivation.lexemes, List.append_assoc] at h
      obtain ⟨s, _, rfl, behind⟩ := (ihbase h).exists_base
      obtain ⟨t, rest, rfl, after⟩ := (ihexponent behind).exists_of_ne_atom (by simp)
      refine .same (.raised s position t) ?_ after (fun e => by cases e)
      rw [Derivation.lexemes, List.append_assoc, List.cons_append]
  | unsigned operand ih =>
      obtain ⟨s, rest, rfl, after⟩ := (ih h).exists_of_ne_atom (by simp)
      exact .same (.unsigned s) rfl after (fun e => by cases e)
  | signed sign position operand ih =>
      obtain ⟨_, rfl, -, behind⟩ := h.exists_rest (sign.token_ne_ident _)
      obtain ⟨s, rest, rfl, after⟩ := (ih behind).exists_of_ne_atom (by simp)
      exact .same (.signed sign position s) rfl after (fun e => by cases e)
  | @single s operand ih =>
      obtain ⟨s, rest, rfl, after⟩ := (ih h).exists_of_ne_atom s.operand_ne_atom
      exact .same (.single s) rfl after (fun e => by cases e)
  | @extended s left operator position right ihleft ihright =>
      rw [Derivation.lexemes, List.append_assoc] at h
      obtain ⟨t, _, rfl, behind⟩ := (ihleft h).exists_of_ne_atom (by simp)
      obtain ⟨_, rfl, -, behind⟩ := behind.exists_rest (operator.token_ne_ident _)
      obtain ⟨u, rest, rfl, after⟩ := (ihright behind).exists_of_ne_atom s.operand_ne_atom
      refine .same (.extended t operator position u) ?_ after (fun e => by cases e)
      rw [Derivation.lexemes, List.append_assoc, List.cons_append]

end Derivation

end Fluxion
