import Fluxion.Proofs.Derivation

/-!
# Parentheses that match

A group is cut where its parenthesis is closed.  Lexemes whose parentheses match are passed over as
a whole (`Balanced`): the group that is open before them is still open behind them.  What a group
holds is balanced (`balanced_of_cutGroup`), so is what the grammar derives
(`Derivation.balanced`), and a balanced run of lexemes is all that can stand in a group
(`Balanced.eq_of_append_eq`).
-/

namespace Fluxion

open Formula (Token Lexeme)

variable {lexemes : List Lexeme}

/-- Lexemes whose parentheses match: none of them closes a group that is
open before. -/
def Balanced (lexemes : List Lexeme) : Prop :=
  ∀ depth rest, Formula.cutGroup depth (lexemes ++ rest) =
    (Formula.cutGroup depth rest).map fun group => { group with inside := lexemes ++ group.inside }

namespace Balanced

variable {first second : List Lexeme}

theorem append (hfirst : Balanced first) (hsecond : Balanced second) :
    Balanced (first ++ second) := by
  intro depth rest
  rw [List.append_assoc, hfirst, hsecond, Option.map_map]
  refine congrFun (congrArg Option.map (funext fun group => ?_)) _
  rw [Function.comp_apply, List.append_assoc]

theorem single (lexeme : Lexeme) (h : lexeme.token ≠ .opening ∧ lexeme.token ≠ .closing) :
    Balanced [lexeme] := by
  intro depth rest
  obtain ⟨token, position⟩ := lexeme
  cases token with
  | opening => exact absurd rfl h.1
  | closing => exact absurd rfl h.2
  | _ => rfl

theorem cons {lexeme : Lexeme} (h : lexeme.token ≠ .opening ∧ lexeme.token ≠ .closing)
    (hsecond : Balanced second) : Balanced (lexeme :: second) :=
  (single lexeme h).append hsecond

/-- Balanced lexemes stay balanced between parentheses. -/
theorem group (h : Balanced lexemes) (opened closed : Nat) :
    Balanced (⟨.opening, opened⟩ :: (lexemes ++ [⟨.closing, closed⟩])) := by
  intro depth rest
  rw [List.cons_append, List.append_assoc, List.singleton_append]
  show (Formula.cutGroup (depth + 1) (lexemes ++ ⟨.closing, closed⟩ :: rest)).map _ = _
  rw [h]
  show (((Formula.cutGroup depth rest).map _).map _).map _ = _
  rw [Option.map_map, Option.map_map]
  refine congrFun (congrArg Option.map (funext fun group => ?_)) _
  simp

/-- The group that a parenthesis opens ends at the parenthesis that closes it.
This is the bridge from derivations, which know their groups, to the steps,
which search for them. -/
theorem cutGroup_eq (h : Balanced lexemes) (closed : Nat) (rest : List Lexeme) :
    Formula.cutGroup 0 (lexemes ++ ⟨.closing, closed⟩ :: rest) =
      some ⟨lexemes, ⟨.closing, closed⟩, rest⟩ := by
  rw [h]
  apply congrArg some
  simp only [List.append_nil]

/-- What stands in a group is unique, so a group that is cut is the
group that was derived. -/
theorem eq_of_append_eq {closed closed' : Nat} {rest rest' : List Lexeme} (hfirst : Balanced first)
    (hsecond : Balanced second)
    (same : first ++ ⟨.closing, closed⟩ :: rest = second ++ ⟨.closing, closed'⟩ :: rest') :
    first = second ∧ closed = closed' ∧ rest = rest' := by
  have cut := hfirst.cutGroup_eq closed rest
  rw [same, hsecond.cutGroup_eq closed' rest'] at cut
  cases cut
  exact ⟨rfl, rfl, rfl⟩

end Balanced

/-- The lexemes before the parenthesis that closes a group close what they
open, and as many more as are counted. -/
theorem cutGroup_inside_append {depth : Nat} {group : Formula.Group}
    (cut : Formula.cutGroup depth lexemes = some group) (deeper : Nat) (rest : List Lexeme) :
    group.closing.token = .closing ∧
      Formula.cutGroup (depth + deeper) (group.inside ++ rest) =
        (Formula.cutGroup deeper rest).map fun other =>
          { other with inside := group.inside ++ other.inside } := by
  induction lexemes generalizing depth group with
  | nil => cases cut
  | cons lexeme others ih =>
      -- a lexeme that closes nothing of its own stands inside, and changes what is open
      have inside {depth' : Nat} (cut : (Formula.cutGroup depth' others).map
            (fun inner => { inner with inside := lexeme :: inner.inside }) = some group)
          (step : ∀ list, Formula.cutGroup (depth + deeper) (lexeme :: list) =
            (Formula.cutGroup (depth' + deeper) list).map fun other =>
              { other with inside := lexeme :: other.inside }) :
          group.closing.token = .closing ∧
            Formula.cutGroup (depth + deeper) (group.inside ++ rest) =
              (Formula.cutGroup deeper rest).map fun other =>
                { other with inside := group.inside ++ other.inside } := by
        obtain ⟨inner, found, rfl⟩ := Option.map_eq_some_iff.1 cut
        obtain ⟨closing, behind⟩ := ih found
        refine ⟨closing, ?_⟩
        rw [List.cons_append, step, behind, Option.map_map]
        rfl
      obtain ⟨token, position⟩ := lexeme
      cases token with
      | opening =>
          refine inside cut fun list => ?_
          rw [Nat.add_right_comm]
          rfl
      | closing =>
          cases depth with
          | zero =>
              cases cut
              refine ⟨rfl, ?_⟩
              rw [Nat.zero_add]
              exact Option.map_id'.symm
          | succ depth =>
              refine inside cut fun list => ?_
              rw [Nat.add_right_comm]
              rfl
      | _ => exact inside cut fun list => rfl

theorem balanced_of_cutGroup {group : Formula.Group}
    (cut : Formula.cutGroup 0 lexemes = some group) : Balanced group.inside := by
  intro depth rest
  have whole := (cutGroup_inside_append cut depth rest).2
  rwa [Nat.zero_add] at whole

/-- What is cut is a group: lexemes that match, and the parenthesis behind them. -/
theorem exists_of_cutGroup {group : Formula.Group}
    (cut : Formula.cutGroup 0 lexemes = some group) :
    ∃ closed, group.closing = ⟨.closing, closed⟩ ∧ Balanced group.inside ∧
      lexemes = group.inside ++ ⟨.closing, closed⟩ :: group.after := by
  obtain ⟨inside, ⟨token, closed⟩, after⟩ := group
  obtain rfl : token = .closing := (cutGroup_inside_append cut 0 []).1
  exact ⟨closed, rfl, balanced_of_cutGroup cut, Formula.eq_of_cutGroup cut⟩

/-- What the grammar derives is balanced, whichever the vocabulary.  The
induction has one case for each rule. -/
theorem Derivation.balanced {v : Vocabulary} {r : Rule} (d : Derivation v r) :
    Balanced d.lexemes := by
  induction d with
  | number | «variable» | constant => exact .single _ (by simp)
  | call name position opened closed known argument ih =>
      exact (ih.group opened closed).cons (by simp)
  | group opened closed inside ih => exact ih.group opened closed
  | unraised _ ih | unsigned _ ih | single _ ih => exact ih
  | raised base position exponent ihbase ihexponent =>
      exact ihbase.append (ihexponent.cons (by simp))
  | signed sign position operand ih => exact ih.cons sign.token_ne_parenthesis
  | extended left operator position right ihleft ihright =>
      exact ihleft.append (ihright.cons operator.token_ne_parenthesis)

end Fluxion
