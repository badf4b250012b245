import Fluxion.Expr.Basic
import Mathlib.Data.List.Basic

/-!
# Parts of trees

A part of a tree is the tree itself or a part of one of its operands.
-/

namespace Fluxion.Expr

variable {K : Type} {e o : Expr K}

/-- The operands of the outermost operation.  What is proved of all operands
need not be proved node by node. -/
def operands : Expr K → List (Expr K)
  | var _ | const _ | named _ => []
  | add u v | sub u v | mul u v | div u v | pow u v => [u, v]
  | call _ u => [u]

/-- An operand is smaller than its node, which is what recursions over
operands go down in. -/
theorem size_lt_of_operand (member : o ∈ e.operands) : o.size < e.size := by
  cases e with
  | var | const | named => cases member
  | add u v | sub u v | mul u v | div u v | pow u v =>
    rw [size]
    obtain rfl | rfl := List.mem_pair.1 member <;> omega
  | call f u =>
    obtain rfl := List.mem_singleton.1 member
    exact Nat.lt_succ_self _

theorem mentions_of_operand {name : String} (member : o ∈ e.operands)
    (occurs : o.mentions name = true) : e.mentions name = true := by
  cases e with
  | var | const | named => cases member
  | add u v | sub u v | mul u v | div u v | pow u v =>
    rw [mentions, Bool.or_eq_true]
    obtain rfl | rfl := List.mem_pair.1 member
    · exact .inl occurs
    · exact .inr occurs
  | call f u =>
    obtain rfl := List.mem_singleton.1 member
    exact occurs

/-- What holds of a tree if it holds of its operands holds of every tree.
Most facts about trees treat all nodes alike, and need no more than this. -/
@[elab_as_elim]
theorem inductionOnOperands {motive : Expr K → Prop} (e : Expr K)
    (operation : ∀ e, (∀ o ∈ e.operands, motive o) → motive e) : motive e := by
  induction e with
  | var | const | named => exact operation _ fun o member => nomatch member
  | add u v ihu ihv | sub u v ihu ihv | mul u v ihu ihv | div u v ihu ihv | pow u v ihu ihv =>
    exact operation _ (List.forall_mem_cons.2 ⟨ihu, List.forall_mem_singleton.2 ihv⟩)
  | call f u ih => exact operation _ (List.forall_mem_singleton.2 ih)

/-- Being a part of a tree, the tree itself included. -/
inductive Within : Expr K → Expr K → Prop
  | refl (e : Expr K) : Within e e
  | operand {u o e : Expr K} (within : Within u o) (member : o ∈ e.operands) : Within u e

end Fluxion.Expr
