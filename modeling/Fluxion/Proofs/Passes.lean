import Fluxion.Proofs.Parts
import Fluxion.Proofs.Simplification
import Mathlib.Logic.Function.Iterate

/-!
# The recursion of simplification

A pass simplifies the operands of a node, applies the rule for its root, and simplifies the answer
once more if the rule asks for it.  Nothing in this says that it comes to an end: an answer can have as
many nodes as the node it replaces.  `passWithin` is this recursion by itself, cut off at a depth, and
it is never cut off at a depth above `3 * size + 2`, whatever the arithmetic of the constants
(`passWithin_eq_simplifyPass`).  Its result has at most as many nodes as the tree, and so has that of
repeated passes (`simplify_terminates`).

The recursion also carries whatever simplified operands and the rules for roots keep: a family of trees
that is `Closed` under both is closed under simplification.
-/

namespace Fluxion.Expr

variable {K : Type}

section Operands

variable {f : Expr K → Option (Expr K)} {g : Expr K → Expr K}

/-- Exchanges the operands of the outermost operation and keeps the operation. -/
def mapOperands (g : Expr K → Expr K) : Expr K → Expr K
  | add u v => add (g u) (g v)
  | sub u v => sub (g u) (g v)
  | mul u v => mul (g u) (g v)
  | div u v => div (g u) (g v)
  | pow u v => pow (g u) (g v)
  | call h u => call h (g u)
  | leaf => leaf

/-- Exchanges the operands of the outermost operation, from left to right, if
all can be exchanged. -/
def mapOperands? (f : Expr K → Option (Expr K)) : Expr K → Option (Expr K)
  | add u v => do return add (← f u) (← f v)
  | sub u v => do return sub (← f u) (← f v)
  | mul u v => do return mul (← f u) (← f v)
  | div u v => do return div (← f u) (← f v)
  | pow u v => do return pow (← f u) (← f v)
  | call h u => do return call h (← f u)
  | leaf => some leaf

theorem mapOperands?_eq_some {e : Expr K} (each : ∀ o ∈ e.operands, f o = some (g o)) :
    e.mapOperands? f = some (e.mapOperands g) := by
  cases e with
  | var | const | named => rfl
  | add u v | sub u v | mul u v | div u v | pow u v =>
    rw [mapOperands?, each u (.head _), each v (.tail _ (.head _))]
    rfl
  | call h u =>
    rw [mapOperands?, each u (.head _)]
    rfl

/-- A node whose operands become no larger, and stay constants where they are,
weighs no more. -/
theorem weight_mapOperands_le {e : Expr K} (smaller : ∀ o ∈ e.operands, (g o).size ≤ o.size)
    (constant : ∀ o ∈ e.operands, o.isConst = true → (g o).isConst = true) :
    (e.mapOperands g).weight ≤ e.weight := by
  cases e with
  | var | const | named => exact Nat.le_refl _
  | call h u => exact weight_le_of_argument h (smaller u (.head _))
  | add u v | sub u v | mul u v | div u v | pow u v =>
    obtain ⟨adds, subs, muls, divs, pows⟩ := weight_le_of_operands (smaller u (.head _))
      (smaller v (.tail _ (.head _))) (constant u (.head _))
    assumption

end Operands

variable [Scalar K] {e : Expr K}

/-! ### One pass -/

/-- The recursion of a pass by itself, to a depth.  It shows that the pass is
a plain recursion with a bound that is never met. -/
def passWithin : Nat → Expr K → Option (Expr K)
  | 0, _ => none
  | depth + 1, e => do
    let node ← e.mapOperands? (passWithin depth)
    match reduceRoot node with
    | .final s => some s
    | .again t => passWithin depth t

/-- A settled node is what its rule makes of it, simplified once more where
the rule asks for it. -/
theorem settle_tree {node : Expr K} (compound : e.isConst = false)
    (hweight : node.weight ≤ e.weight) :
    (settle node compound hweight fun t _ => simplified t).tree =
      match reduceRoot node with
      | .final s => s
      | .again t => t.simplifyPass := by
  unfold settle
  dsimp only
  split
  · next reduct _ => rw [reduct]
  · next reduct _ =>
    rw [reduct]
    rfl

/-- What a pass makes of a tree, in terms of what it makes of the operands and
of the rule's answer. -/
theorem simplifyPass_eq (e : Expr K) :
    e.simplifyPass = match reduceRoot (e.mapOperands simplifyPass) with
      | .final s => s
      | .again t => t.simplifyPass := by
  unfold simplifyPass
  cases e with
  | var | const | named =>
    rw [simplified]
    rfl
  | add | sub | mul | div | pow | call =>
    rw [simplified]
    exact settle_tree _ _

/-- A pass does not enlarge a tree. -/
theorem size_simplifyPass_le (e : Expr K) : e.simplifyPass.size ≤ e.size := (simplified e).size_le

/-- A node with simplified operands weighs no more than the tree, so its rule
may be applied within the same bound. -/
theorem weight_mapOperands_simplifyPass_le (e : Expr K) :
    (e.mapOperands simplifyPass).weight ≤ e.weight :=
  weight_mapOperands_le (fun o _ => size_simplifyPass_le o) fun o _ => (simplified o).constant

/-- A pass cannot be cut off at a depth above the weight of the tree.  The
bound is linear in the size. -/
theorem passWithin_eq_simplifyPass {depth : Nat} (deep : e.weight < depth) :
    passWithin depth e = some e.simplifyPass := by
  induction depth generalizing e with
  | zero => cases deep
  | succ depth ih =>
    -- operands weigh less than the tree, and so does what goes round once more
    have operands (o : Expr K) (member : o ∈ e.operands) :
        passWithin depth o = some o.simplifyPass :=
      ih (Nat.lt_of_lt_of_le (weight_lt_of_size_lt (size_lt_of_operand member))
        (Nat.le_of_lt_succ deep))
    have lighter := weight_mapOperands_simplifyPass_le e
    have shrinks := reduceRoot_shrinks (e.mapOperands simplifyPass)
    rw [passWithin, mapOperands?_eq_some operands, simplifyPass_eq, Option.bind_eq_bind,
      Option.bind_some]
    cases answer : reduceRoot (e.mapOperands simplifyPass) with
    | final s => rfl
    | again t =>
      rw [answer] at shrinks
      exact ih (Nat.lt_of_lt_of_le shrinks (Nat.le_trans lighter (Nat.le_of_lt_succ deep)))

@[simp] theorem simplifyPass_const (c : K) : (const c).simplifyPass = const c := by
  rw [simplifyPass_eq]
  rfl

/-! ### Repeated passes -/

/-- Passes are repeated up to the given number; fewer are made only if another
changes nothing. -/
theorem exists_iterate_of_simplifyRounds (rounds : Nat) (e : Expr K) :
    ∃ passes ≤ rounds, simplifyRounds rounds e = simplifyPass^[passes] e ∧
      (passes < rounds → ((simplifyRounds rounds e).simplifyPass == simplifyRounds rounds e) = true) := by
  induction rounds generalizing e with
  | zero => exact ⟨0, Nat.le_refl 0, rfl, nofun⟩
  | succ rounds ih =>
    rw [simplifyRounds]
    split
    · next unchanged => exact ⟨0, Nat.zero_le _, rfl, fun _ => unchanged⟩
    · obtain ⟨passes, few, same, stops⟩ := ih e.simplifyPass
      exact ⟨passes + 1, Nat.succ_le_succ few, same, fun fewer => stops (Nat.lt_of_succ_lt_succ fewer)⟩

/-- However many passes there are, the tree does not grow. -/
theorem size_iterate_simplifyPass_le (passes : Nat) (e : Expr K) :
    (simplifyPass^[passes] e).size ≤ e.size := by
  induction passes with
  | zero => exact Nat.le_refl _
  | succ passes ih =>
    rw [Function.iterate_succ_apply']
    exact Nat.le_trans (size_simplifyPass_le _) ih

/-- The recursion of a pass comes to an end, at a depth that grows with the
size of the tree, with a tree that is no larger.  Simplification makes from
one to five passes, fewer than five only if the next one would change nothing,
and its result is no larger either.  Nothing is assumed of the carrier, so
this holds of machine numbers as of any others. -/
theorem simplify_terminates (e : Expr K) :
    (∀ further, passWithin (3 * e.size + 3 + further) e = some e.simplifyPass) ∧
      e.simplifyPass.size ≤ e.size ∧
      (∃ passes, 1 ≤ passes ∧ passes ≤ 5 ∧ e.simplify = simplifyPass^[passes] e ∧
        (passes < 5 → (e.simplify.simplifyPass == e.simplify) = true)) ∧
      e.simplify.size ≤ e.size := by
  have deep (further : Nat) : e.weight < 3 * e.size + 3 + further := by
    have bound := rank_le e
    rw [weight]
    omega
  obtain ⟨passes, few, same, stops⟩ := exists_iterate_of_simplifyRounds 4 e.simplifyPass
  have iterated : e.simplify = simplifyPass^[passes + 1] e := same
  -- the first pass is made in any case
  refine ⟨fun further => passWithin_eq_simplifyPass (deep further), size_simplifyPass_le e,
    ⟨passes + 1, Nat.le_add_left 1 passes, Nat.succ_le_succ few, iterated,
      fun fewer => stops (Nat.lt_of_succ_lt_succ fewer)⟩, ?_⟩
  rw [iterated]
  exact size_iterate_simplifyPass_le _ e

/-! ### Families that simplification does not leave -/

section Closed

variable {Family : Expr K → Prop}

/-- Simplifying operands and applying a rule leads from members of the
family to members. -/
structure Closed (Family : Expr K → Prop) : Prop where
  operands {e : Expr K} (member : Family e)
    (each : ∀ o ∈ e.operands, Family o → Family o.simplifyPass) : Family (e.mapOperands simplifyPass)
  rule {e : Expr K} (member : Family e) : Family (reduceRoot e).tree

/-- A family that is closed under the rules is closed under a pass. -/
theorem Closed.simplifyPass (closed : Closed Family) (member : Family e) : Family e.simplifyPass := by
  induction weight : e.weight using Nat.strong_induction_on generalizing e with
  | _ w ih =>
    subst weight
    have node : Family (e.mapOperands Expr.simplifyPass) :=
      closed.operands member fun o operand member =>
        ih _ (weight_lt_of_size_lt (size_lt_of_operand operand)) member rfl
    have lighter := weight_mapOperands_simplifyPass_le e
    have shrinks := reduceRoot_shrinks (e.mapOperands Expr.simplifyPass)
    have reduct := closed.rule node
    rw [simplifyPass_eq]
    cases answer : reduceRoot (e.mapOperands Expr.simplifyPass) with
    | final s =>
      rw [answer] at reduct
      exact reduct
    | again t =>
      rw [answer] at reduct shrinks
      exact ih _ (Nat.lt_of_lt_of_le shrinks lighter) reduct rfl

/-- A family that is closed under the rules is closed under any number of passes. -/
theorem Closed.simplifyRounds (closed : Closed Family) (rounds : Nat) (member : Family e) :
    Family (simplifyRounds rounds e) := by
  induction rounds generalizing e with
  | zero => exact member
  | succ rounds ih =>
    rw [Expr.simplifyRounds]
    split
    · exact member
    · exact ih (closed.simplifyPass member)

/-- A family that is closed under the rules is closed under simplification. -/
theorem Closed.simplify (closed : Closed Family) (member : Family e) : Family e.simplify :=
  closed.simplifyRounds 4 (closed.simplifyPass member)

end Closed

end Fluxion.Expr
