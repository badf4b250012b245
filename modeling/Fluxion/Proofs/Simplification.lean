import Fluxion.Expr.Simplify
import Fluxion.Proofs.Refinement

/-!
# Simplification keeps meanings

Each rule of simplification replaces a node by a tree that refines it; the rules for a node settle
the pass, by induction on what the pass itself recurs on.  A simplified tree has therefore the value
of the original wherever that has one (`simplify_keeps_value`), and the same slope
(`refines_simplify`).
-/

namespace Fluxion

namespace Expr

/-- Trees that compare equal are equal: no constant of either is undefined. -/
theorem eq_of_beq {u v : Expr Exact} (h : (u == v) = true) : u = v := by
  change instBEqExpr.beq u v = true at h
  induction u generalizing v with
  | var name =>
      cases v <;> simp only [instBEqExpr.beq, Bool.false_eq_true, beq_iff_eq] at h
      rw [h]
  | const c =>
      cases v <;> simp only [instBEqExpr.beq, Bool.false_eq_true] at h
      obtain ⟨x, rfl, rfl⟩ := Exact.beq_iff.1 h
      rfl
  | named c =>
      cases v <;> simp only [instBEqExpr.beq, Bool.false_eq_true, beq_iff_eq] at h
      rw [h]
  | add u w ihu ihw | sub u w ihu ihw | mul u w ihu ihw | div u w ihu ihw | pow u w ihu ihw =>
      cases v <;> simp only [instBEqExpr.beq, Bool.false_eq_true, Bool.and_eq_true] at h
      rw [ihu h.1, ihw h.2]
  | call f u ih =>
      cases v <;>
        simp only [instBEqExpr.beq, Bool.false_eq_true, Bool.and_eq_true, beq_iff_eq] at h
      rw [h.1, ih h.2]

/-- The tree that a rule answers with, simplified once more or not. -/
def Reduct.tree {K : Type} : Reduct K → Expr K
  | final e | again e => e

/-! ### The rules -/

variable {u v : Expr Exact}

/-- A tree is the product of its coefficient and its term. -/
theorem refines_splitCoefficient (u : Expr Exact) :
    Refines u (mul (const u.splitCoefficient.1) u.splitCoefficient.2) := by
  unfold splitCoefficient
  split
  · rfl
  · exact Refines.mul_one_left

/-- Collecting like terms is sound for an operation that combines
coefficients. -/
theorem collect_refines {operation : Expr Exact → Expr Exact → Expr Exact}
    {combine : Exact → Exact → Exact}
    (congruence : ∀ {u u' v v'}, Refines u u' → Refines v v' →
      Refines (operation u v) (operation u' v'))
    (like : ∀ {c d w}, Refines (operation (mul (const c) w) (mul (const d) w))
      (mul (const (combine c d)) w)) (u v : Expr Exact) :
    Refines (operation u v) (collect operation combine u v).tree := by
  simp only [collect]
  split
  · have same := eq_of_beq (by assumption)
    have right := refines_splitCoefficient v
    rw [← same] at right
    exact (congruence (refines_splitCoefficient u) right).trans like
  · rfl

/-- The rule for sums keeps values.  Each rule below is treated alike, one
operation at a time. -/
theorem simplifyAdd_refines (u v : Expr Exact) : Refines (add u v) (simplifyAdd u v).tree := by
  have collected := collect_refines Refines.add Refines.add_like u v
  unfold simplifyAdd
  split
  · exact Refines.add_const
  · split
    · next zero =>
        cases Exact.isZero_iff.1 zero
        exact Refines.zero_add
    · exact collected
  · split
    · next zero =>
        cases Exact.isZero_iff.1 zero
        exact Refines.add_zero
    · exact collected
  · exact collected

theorem simplifySub_refines (u v : Expr Exact) : Refines (sub u v) (simplifySub u v).tree := by
  have collected := collect_refines Refines.sub Refines.sub_like u v
  unfold simplifySub
  split
  · exact Refines.sub_const
  · split
    · next zero =>
        cases Exact.isZero_iff.1 zero
        exact Refines.zero_sub
    · exact collected
  · split
    · next zero =>
        cases Exact.isZero_iff.1 zero
        exact Refines.sub_zero
    · split
      · exact Refines.sub_const_neg
      · exact collected
  · split
    · next same =>
        cases eq_of_beq same
        exact Refines.sub_self
    · exact collected

/-- Where two powers have a common base, they are the powers that
merging works with. -/
theorem refines_commonBase? {u v b m n : Expr Exact} (h : commonBase? u v = some (b, m, n)) :
    Refines u (pow b m) ∧ Refines v (pow b n) := by
  unfold commonBase? at h
  split at h
  · split at h
    · next same =>
        cases h
        cases eq_of_beq same
        exact ⟨.refl _, .refl _⟩
    · split at h
      · next same =>
          cases h
          cases eq_of_beq same
          exact ⟨.refl _, Refines.pow_one_right⟩
      · cases h
  · split at h
    · next same =>
        cases h
        cases eq_of_beq same
        exact ⟨.refl _, Refines.pow_one_right⟩
    · cases h
  · cases h

/-- Merging powers of one base keeps values, and may give the product a value
where it had none. -/
theorem multiplyPowers_refines (u v : Expr Exact) :
    Refines (mul u v) (multiplyPowers u v).tree := by
  unfold multiplyPowers
  split
  · next merged =>
      obtain ⟨left, right⟩ := refines_commonBase? merged
      exact (left.mul right).trans Refines.pow_mul_pow
  · split
    · next merged =>
        obtain ⟨right, left⟩ := refines_commonBase? merged
        exact (Refines.mul_comm.trans (right.mul left)).trans Refines.pow_mul_pow
    · simp only [Reduct.tree]
      split
      · next square =>
          rw [Bool.and_eq_true] at square
          cases eq_of_beq square.1
          exact Refines.mul_self
      · rfl

theorem simplifyMul_refines (u v : Expr Exact) : Refines (mul u v) (simplifyMul u v).tree := by
  unfold simplifyMul
  split
  · exact Refines.mul_const
  · split
    · next zero =>
        cases Exact.isZero_iff.1 zero
        exact Refines.zero_mul
    · split
      · next one =>
          cases Exact.isOne_iff.1 one
          exact Refines.one_mul
      · split
        · exact Refines.mul_const_mul
        · rfl
        · exact Refines.mul_const_div
        · rfl
        · exact multiplyPowers_refines _ _
  · split
    · next zero =>
        cases Exact.isZero_iff.1 zero
        exact Refines.mul_comm.trans Refines.zero_mul
    · split
      · next one =>
          cases Exact.isOne_iff.1 one
          exact Refines.mul_comm.trans Refines.one_mul
      · exact Refines.mul_comm
  · exact Refines.mul_assoc
  · rfl
  · exact Refines.mul_left_comm
  · rfl
  · exact multiplyPowers_refines _ _

theorem dividePowers_refines (u v : Expr Exact) : Refines (div u v) (dividePowers u v).tree := by
  unfold dividePowers
  split
  · next same =>
      cases eq_of_beq same
      exact Refines.div_self
  · split
    · next merged =>
        obtain ⟨left, right⟩ := refines_commonBase? merged
        exact (left.div right).trans Refines.pow_div_pow
    · rfl

theorem divideByConstant_refines (u : Expr Exact) (c : Exact) :
    Refines (div u (const c)) (divideByConstant u c).tree := by
  unfold divideByConstant
  split
  · next minus =>
      cases Exact.isMinusOne_iff.1 minus
      exact Refines.div_neg_one
  · split
    · split
      · exact Refines.mul_div_const
      · rfl
    · exact dividePowers_refines _ _

theorem simplifyDiv_refines (u v : Expr Exact) : Refines (div u v) (simplifyDiv u v).tree := by
  unfold simplifyDiv
  split
  · split
    · exact Refines.div_const
    · split
      · next zero =>
          cases Exact.isZero_iff.1 zero
          exact Refines.zero_div
      · split
        · next one =>
            cases Exact.isOne_iff.1 one
            exact Refines.div_one
        · exact divideByConstant_refines _ _
  · split
    · next zero =>
        cases Exact.isZero_iff.1 zero
        exact Refines.zero_div
    · exact dividePowers_refines _ _
  · split
    · next one =>
        cases Exact.isOne_iff.1 one
        exact Refines.div_one
    · exact divideByConstant_refines _ _
  · exact dividePowers_refines _ _

/-- Raising to a constant keeps values; exponents of a power of a power are
multiplied only where that is right for negative bases. -/
theorem raiseToConstant_refines (u : Expr Exact) (n : Exact) :
    Refines (pow u (const n)) (raiseToConstant u n) := by
  unfold raiseToConstant
  split
  · next zero =>
      cases Exact.isZero_iff.1 zero
      exact Refines.pow_zero
  · split
    · next one =>
        cases Exact.isOne_iff.1 one
        exact Refines.pow_one
    · split
      · dsimp only
        split
        · next one =>
            cases Exact.isOne_iff.1 one
            exact Refines.one_pow
        · split
          · exact Refines.pow_const
          · rfl
      · split
        · next whole => exact Refines.pow_pow whole
        · rfl
      · rfl

theorem simplifyPow_refines (u v : Expr Exact) : Refines (pow u v) (simplifyPow u v).tree := by
  unfold simplifyPow
  split
  · exact raiseToConstant_refines _ _
  · simp only [Reduct.tree]
    split
    · next one =>
        cases Exact.isOne_iff.1 one
        exact Refines.one_pow
    · rfl
  · rfl

/-- A function with a whole value at a whole number folds into it. -/
theorem call_int_refines {f : Elementary} {c d : ℤ} (defined : f.Defined c) (value : f.real c = d) :
    Refines (call f (int c)) (int d) := by
  have folded : f.value (Scalar.ofInt c) = (Scalar.ofInt d : Exact) :=
    Elementary.value_eq_real.2 ⟨c, rfl, defined, value⟩
  show Refines _ (const (Scalar.ofInt d))
  rw [← folded]
  exact Refines.call_const f

/-- The special values of the functions are their values. -/
theorem simplifyCall_refines (f : Elementary) (u : Expr Exact) :
    Refines (call f u) (simplifyCall f u) := by
  unfold simplifyCall
  split
  · split
    · next zero =>
        cases Exact.isZero_iff.1 zero
        exact call_int_refines trivial (by simp [Elementary.real])
    · split
      · next one =>
          cases Exact.isOne_iff.1 one
          exact Refines.exp_one
      · rfl
  · split
    · next one =>
        cases Exact.isOne_iff.1 one
        exact call_int_refines (by simp [Elementary.Defined]) (by simp [Elementary.real])
    · rfl
  · exact Refines.log_e
  · split
    · next root =>
        rcases Bool.or_eq_true_iff.1 root with zero | one
        · cases Exact.isZero_iff.1 zero
          exact call_int_refines (by simp [Elementary.Defined]) (by simp [Elementary.real])
        · cases Exact.isOne_iff.1 one
          exact call_int_refines (by simp [Elementary.Defined]) (by simp [Elementary.real])
    · rfl
  -- the sine, the cosine, the tangent and the inverses of the sine and the tangent at zero
  iterate 5
    split
    · next zero =>
        cases Exact.isZero_iff.1 zero
        exact call_int_refines (by simp [Elementary.Defined]) (by simp [Elementary.real])
    · rfl
  rfl

/-- The rule for a root keeps values, whatever the root. -/
theorem reduceRoot_refines (e : Expr Exact) : Refines e (reduceRoot e).tree := by
  cases e with
  | add u v => exact simplifyAdd_refines u v
  | sub u v => exact simplifySub_refines u v
  | mul u v => exact simplifyMul_refines u v
  | div u v => exact simplifyDiv_refines u v
  | pow u v => exact simplifyPow_refines u v
  | call f u => exact simplifyCall_refines f u
  | var | const | named => rfl

/-! ### The pass -/

/-- Settling a node keeps its meaning if simplifying once more does. -/
theorem settle_refines {e node : Expr Exact} (compound : e.isConst = false)
    (hweight : node.weight ≤ e.weight)
    {simplifyAgain : (t : Expr Exact) → t.weight < e.weight → Simplified t}
    (again : ∀ t lighter, Refines t (simplifyAgain t lighter).tree) :
    Refines node (settle node compound hweight simplifyAgain).tree := by
  have root := reduceRoot_refines node
  unfold settle
  dsimp only
  split
  · next s _ reduct _ =>
      rw [reduct] at root
      exact root
  · next t ht reduct _ =>
      rw [reduct] at root
      exact root.trans (again t (Nat.lt_of_lt_of_le ht hweight))

/-- A simplified tree keeps the values of the tree.  The induction is the
recursion of the pass itself. -/
theorem simplified_refines (e : Expr Exact) : Refines e (simplified e).tree := by
  induction e using simplified.induct with
  | case1 name => rw [simplified]
  | case2 c => rw [simplified]
  | case3 c => rw [simplified]
  | case4 u v ihu ihv again =>
      rw [simplified]
      exact (ihu.add ihv).trans (settle_refines _ _ again)
  | case5 u v ihu ihv again =>
      rw [simplified]
      exact (ihu.sub ihv).trans (settle_refines _ _ again)
  | case6 u v ihu ihv again =>
      rw [simplified]
      exact (ihu.mul ihv).trans (settle_refines _ _ again)
  | case7 u v ihu ihv again =>
      rw [simplified]
      exact (ihu.div ihv).trans (settle_refines _ _ again)
  | case8 u v ihu ihv again =>
      rw [simplified]
      exact (ihu.pow ihv).trans (settle_refines _ _ again)
  | case9 f u ih again =>
      rw [simplified]
      exact (ih.call f).trans (settle_refines _ _ again)

/-- A pass keeps values. -/
theorem refines_simplifyPass (e : Expr Exact) : Refines e e.simplifyPass := simplified_refines e

/-- Any number of passes keeps values. -/
theorem refines_simplifyRounds (rounds : Nat) (e : Expr Exact) :
    Refines e (simplifyRounds rounds e) := by
  induction rounds generalizing e with
  | zero => rfl
  | succ rounds ih =>
      simp only [simplifyRounds]
      split
      · rfl
      · exact (refines_simplifyPass e).trans (ih e.simplifyPass)

/-- A simplified tree means what the tree means, wherever that means something. -/
theorem refines_simplify (e : Expr Exact) : Refines e e.simplify :=
  (refines_simplifyPass e).trans (refines_simplifyRounds 4 e.simplifyPass)

/-- A tree that one pass leaves alone is simplified. -/
theorem simplify_of_fixed {e : Expr Exact} (fixed : e.simplifyPass = e) : e.simplify = e := by
  have rounds : ∀ rounds, simplifyRounds rounds e = e := by
    intro rounds
    induction rounds with
    | zero => rfl
    | succ rounds ih =>
        simp only [simplifyRounds, fixed]
        split
        · rfl
        · exact ih
  rw [simplify, fixed, rounds]

/-- Simplification never shrinks the domain of a tree and never changes a
value: where the tree has a value, one pass has the same value, and so have
all passes together.  The domain may grow, as when `x/x` becomes one.  Each
rule is sound by itself, and the passes by induction on the weight that bounds
their recursion. -/
theorem simplify_keeps_value {e : Expr Exact} {a : String → Exact} {y : ℝ}
    (defined : e.valueIn a = .real y) :
    e.simplifyPass.valueIn a = .real y ∧ e.simplify.valueIn a = .real y :=
  ⟨(refines_simplifyPass e).valueIn defined, (refines_simplify e).valueIn defined⟩

/-- At two, `x/x + 0*log(x)` is one, and so are its simplified forms. -/
theorem simplify_keeps_value_of_cancellation :
    let e : Expr Exact := add (div (var "x") (var "x")) (mul (int 0) (call .log (var "x")))
    let a : String → Exact := fun _ => .real 2
    e.valueIn a = .real 1 ∧ e.simplifyPass.valueIn a = .real 1 ∧ e.simplify.valueIn a = .real 1 := by
  intro e a
  have quotient : (div (var "x") (var "x")).valueIn a = .real 1 :=
    valueIn_div.2 ⟨2, 2, rfl, rfl, by norm_num, by norm_num⟩
  have logarithm : (call .log (var "x")).valueIn a = .real (Real.log 2) :=
    valueIn_call.2 ⟨2, rfl, by simp [Elementary.Defined], rfl⟩
  have product : (mul (int 0) (call .log (var "x"))).valueIn a = .real 0 :=
    valueIn_mul.2 ⟨0, Real.log 2, by simp, logarithm, by norm_num⟩
  have defined : e.valueIn a = .real 1 :=
    valueIn_add.2 ⟨1, 0, quotient, product, by norm_num⟩
  exact ⟨defined, simplify_keeps_value defined⟩

end Expr

end Fluxion
