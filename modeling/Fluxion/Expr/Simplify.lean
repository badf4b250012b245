import Fluxion.Expr.Derivative

/-!
# Simplification

A pass works through a tree from the leaves up.  At each node a rule looks at the operands, which
are simplified already, and answers either with the node's final form or with a tree that is to be
simplified once more.  The rules fold constants, drop neutral elements, collect coefficients in
front of products, add and subtract exponents of equal bases and know a few special values.  Named
constants are never folded into decimals, so `2^x/log(2)` keeps its exact form.

### Termination

A rule never makes a tree larger.  A tree that goes round once more may have as many nodes as the
node it replaces, but then it is a product with a constant in front, or a power, and the node was
neither: `weight` counts both, and every round lowers it (`reduceRoot_shrinks`).
-/

namespace Fluxion

namespace Expr

variable {K : Type} [Scalar K]

/-- What a rule makes of a node: a form that is final, or one that is to be
simplified once more. -/
inductive Reduct (K : Type) where
  /-- the simplified tree -/
  | final (e : Expr K)
  /-- a tree that is simplified once more -/
  | again (e : Expr K)

/-- The product of a coefficient and a term, to be simplified once more, as
the term may bring a coefficient of its own. -/
def scaled (c : K) (u : Expr K) : Reduct K := .again (const c * u)

/-- Whether a tree is a constant. -/
def isConst : Expr K → Bool
  | const _ => true
  | _ => false

/-! ### The rules -/

/-- Collects the coefficients of like terms; other terms keep their operation.
Terms are alike if their trees are equal but for a constant in front. -/
def collect (operation : Expr K → Expr K → Expr K) (combine : K → K → K) (u v : Expr K) :
    Reduct K :=
  let (c, u') := u.splitCoefficient
  let (d, v') := v.splitCoefficient
  if u' == v' then scaled (combine c d) u' else .final (operation u v)

/-- Sums: constants are added, zero disappears, and like terms are collected.  Only
two terms are compared, so like terms with another between them are not found. -/
def simplifyAdd : Expr K → Expr K → Reduct K
  | const a, const b => .final (const (a + b))
  | const a, v => if Scalar.isZero a then .final v else collect add (· + ·) (const a) v
  | u, const b => if Scalar.isZero b then .final u else collect add (· + ·) u (const b)
  | u, v => collect add (· + ·) u v

/-- Differences: as for sums, except that a difference from zero is a negation and a
negative constant is added with its sign changed.  Equal trees cancel at once. -/
def simplifySub : Expr K → Expr K → Reduct K
  | const a, const b => .final (const (a - b))
  | const a, v =>
    if Scalar.isZero a then scaled (Scalar.ofInt (-1)) v else collect sub (· - ·) (const a) v
  | u, const b =>
    if Scalar.isZero b then .final u
    else if Scalar.isNegative b then .final (u + const (-b))
    else collect sub (· - ·) u (const b)
  | u, v => if u == v then .final (int 0) else collect sub (· - ·) u v

/-- The base and the exponents of two powers of one base; a tree counts as its
own first power beside a power of it.  The power has to come first, so callers
ask in both orders where the order does not matter. -/
def commonBase? : Expr K → Expr K → Option (Expr K × Expr K × Expr K)
  | pow b m, pow c n =>
    if b == c then some (b, m, n) else if b == pow c n then some (b, m, int 1) else none
  | pow b m, v => if b == v then some (b, m, int 1) else none
  | _, _ => none

/-- Products of powers of one base, and squares.  The bases are looked
for in both orders. -/
def multiplyPowers (u v : Expr K) : Reduct K :=
  match commonBase? u v with
  | some (b, m, n) => .again (pow b (m + n))
  | none =>
    match commonBase? v u with
    | some (b, m, n) => .again (pow b (m + n))
    | none => .final (if u == v && !u.isConst then pow u (int 2) else u * v)

/-- Products: constants are multiplied, zero absorbs, one disappears,
coefficients of the factors move to the front, and powers of one base are
merged.  Where a coefficient has moved, the product is simplified once more
with the coefficient as one factor. -/
def simplifyMul : Expr K → Expr K → Reduct K
  | const a, const b => .final (const (a * b))
  | const a, v =>
    if Scalar.isZero a then .final (int 0)
    else if Scalar.isOne a then .final v
    else
      match v with
      | mul (const b) w => scaled (a * b) w
      | mul _ _ => .final (const a * v)
      | div (const b) w => .final (const (a * b) / w)
      | div _ _ => .final (const a * v)
      | _ => multiplyPowers (const a) v
  | u, const b =>
    if Scalar.isZero b then .final (int 0) else if Scalar.isOne b then .final u else scaled b u
  | mul (const c) w, v => scaled c (w * v)
  | mul t w, v => .final (mul t w * v)
  | u, mul (const c) w => scaled c (u * w)
  | u, mul t w => .final (u * mul t w)
  | u, v => multiplyPowers u v

/-- Quotients of equal trees and of powers of one base.  A quotient of equal
trees is one, whether or not they can vanish, so simplifying may define a
value where there was none. -/
def dividePowers (u v : Expr K) : Reduct K :=
  if u == v then .final (int 1)
  else
    match commonBase? u v with
    | some (b, m, n) => .again (pow b (m - n))
    | none => .final (u / v)

/-- Division by a constant other than one: a coefficient that it divides is
divided.  What is not whole stays a quotient, so that `x/3` is not written
with a decimal. -/
def divideByConstant (u : Expr K) (c : K) : Reduct K :=
  if Scalar.isMinusOne c then scaled (Scalar.ofInt (-1)) u
  else
    match u with
    | mul (const d) w =>
      if !Scalar.isZero c && Scalar.isWhole (d / c) then scaled (d / c) w
      else .final (u / const c)
    | u => dividePowers u (const c)

/-- Quotients: quotients of constants are taken where they are whole, zero
stays zero, and powers of one base are merged.  Other quotients of constants
are kept, so that no digits are lost. -/
def simplifyDiv : Expr K → Expr K → Reduct K
  | const a, const b =>
    if !Scalar.isZero b && Scalar.isWhole (a / b) then .final (const (a / b))
    else if Scalar.isZero a then .final (int 0)
    else if Scalar.isOne b then .final (const a)
    else divideByConstant (const a) b
  | const a, v => if Scalar.isZero a then .final (int 0) else dividePowers (const a) v
  | u, const b => if Scalar.isOne b then .final u else divideByConstant u b
  | u, v => dividePowers u v

/-- Powers with a constant exponent: powers of constants that stay whole, and powers
of powers.  A power of a power merges its exponents only for a whole outer one:
`(x^2)^0.5` is not `x`.  The exponents zero and one come first, for every base. -/
def raiseToConstant (u : Expr K) (n : K) : Expr K :=
  if Scalar.isZero n then int 1
  else if Scalar.isOne n then u
  else
    match u with
    | const b =>
      let value := Scalar.pow b n
      if Scalar.isOne b then int 1
      else if Scalar.isFinite value && Scalar.isWhole value then const value
      else pow u (const n)
    | pow b (const m) => if Scalar.isWhole n then pow b (const (m * n)) else pow u (const n)
    | _ => pow u (const n)

/-- Powers: constant exponents have rules of their own, and one to any
power is one. -/
def simplifyPow : Expr K → Expr K → Reduct K
  | u, const n => .final (raiseToConstant u n)
  | const b, v => .final (if Scalar.isOne b then int 1 else pow (const b) v)
  | u, v => .final (pow u v)

/-- Special values of the functions: at zero and at one, and the logarithm of
its own base.  No other value is folded. -/
def simplifyCall (f : Elementary) (u : Expr K) : Expr K :=
  match f, u with
  | .exp, const c =>
    if Scalar.isZero c then int 1 else if Scalar.isOne c then named .e else call .exp u
  | .log, const c => if Scalar.isOne c then int 0 else call .log u
  | .log, named .e => int 1
  | .sqrt, const c => if Scalar.isZero c || Scalar.isOne c then const c else call .sqrt u
  | .sin, const c => if Scalar.isZero c then int 0 else call .sin u
  | .cos, const c => if Scalar.isZero c then int 1 else call .cos u
  | .tan, const c => if Scalar.isZero c then int 0 else call .tan u
  | .arcsin, const c => if Scalar.isZero c then int 0 else call .arcsin u
  | .arctan, const c => if Scalar.isZero c then int 0 else call .arctan u
  | f, u => call f u

/-- The rule for the root of a tree whose operands are simplified.
Leaves have none. -/
def reduceRoot : Expr K → Reduct K
  | add u v => simplifyAdd u v
  | sub u v => simplifySub u v
  | mul u v => simplifyMul u v
  | div u v => simplifyDiv u v
  | pow u v => simplifyPow u v
  | call f u => .final (simplifyCall f u)
  | leaf => .final leaf

/-! ### Rules do not enlarge trees -/

/-- How far a node is from a form that no rule sends round again: powers 0,
products with a constant in front 1, the rest 2.  A rule that goes on without
making a tree smaller lowers its rank. -/
def rank : Expr K → Nat
  | pow _ _ => 0
  | mul u _ => if u.isConst then 1 else 2
  | _ => 2

/-- The measure that every round of simplification lowers.  Size comes first;
among trees of one size the rank decides. -/
def weight (e : Expr K) : Nat := 3 * e.size + e.rank

omit [Scalar K] in
/-- Ranks go up to two. -/
theorem rank_le (e : Expr K) : e.rank ≤ 2 := by
  unfold rank
  split
  · omega
  · split <;> omega
  · omega

omit [Scalar K] in
/-- A tree has a node. -/
theorem size_pos (e : Expr K) : 0 < e.size := by cases e <;> simp [size]

/-- A reduct of a node keeps its size or makes it smaller, and goes on only to
what weighs less. -/
def Reduct.Shrinks (r : Reduct K) (e : Expr K) : Prop :=
  match r with
  | .final s => s.size ≤ e.size
  | .again t => t.weight < e.weight

attribute [local simp] size Reduct.Shrinks

omit [Scalar K] in
/-- Going on with a tree that is no larger and of lower rank goes on
with less weight. -/
theorem shrinks_again {t e : Expr K} (h : t.size ≤ e.size) (rankLower : t.rank < e.rank) :
    (Reduct.again t).Shrinks e := by
  simp only [Reduct.Shrinks, weight]; omega

omit [Scalar K] in
/-- Going on with a smaller tree goes on with less weight, whatever the ranks
are: three times a node outweighs any rank. -/
theorem shrinks_again_of_lt {t e : Expr K} (h : t.size < e.size) :
    (Reduct.again t).Shrinks e := by
  have := rank_le t
  simp only [Reduct.Shrinks, weight]; omega

omit [Scalar K] in
/-- What weighs less is no larger. -/
theorem size_le_of_weight_lt {t e : Expr K} (h : t.weight < e.weight) : t.size ≤ e.size := by
  have := rank_le e
  simp only [weight] at h; omega

/-- Splitting off a coefficient does not enlarge a tree. -/
theorem size_splitCoefficient_le (u : Expr K) : u.splitCoefficient.2.size ≤ u.size := by
  unfold splitCoefficient
  split
  · simp only [size]; omega
  · exact Nat.le_refl _

omit [Scalar K] in
/-- A coefficient in front of a term weighs less than any node of rank two
with that many nodes. -/
theorem scaled_shrinks {c : K} {u e : Expr K} (h : u.size + 2 ≤ e.size) (hrank : e.rank = 2) :
    (scaled c u).Shrinks e :=
  shrinks_again (by simp only [size]; omega) (by rw [hrank]; exact Nat.lt_succ_self 1)

/-- Collecting like terms removes a node or leaves both operands as they are.
Stated once for sums and differences. -/
theorem collect_shrinks (operation : Expr K → Expr K → Expr K) (combine : K → K → K)
    (u v : Expr K) (hsize : (operation u v).size = u.size + v.size + 1)
    (hrank : (operation u v).rank = 2) :
    (collect operation combine u v).Shrinks (operation u v) := by
  have := size_splitCoefficient_le u
  have := size_pos v
  simp only [collect]
  split
  · exact scaled_shrinks (by omega) hrank
  · exact Nat.le_refl _

theorem simplifyAdd_shrinks (u v : Expr K) : (simplifyAdd u v).Shrinks (add u v) := by
  have collected := collect_shrinks add (· + ·) u v rfl rfl
  unfold simplifyAdd
  split
  · simp
  · split
    · simp only [Reduct.Shrinks, size]; omega
    · exact collected
  · split
    · simp only [Reduct.Shrinks, size]; omega
    · exact collected
  · exact collected

theorem simplifySub_shrinks (u v : Expr K) : (simplifySub u v).Shrinks (sub u v) := by
  have collected := collect_shrinks sub (· - ·) u v rfl rfl
  unfold simplifySub
  split
  · simp
  · split
    · exact scaled_shrinks (by simp only [size]; omega) rfl
    · exact collected
  · split
    · simp only [Reduct.Shrinks, size]; omega
    · split
      · exact Nat.le_refl _
      · exact collected
  · split
    · simp only [Reduct.Shrinks, size]; omega
    · exact collected

/-- Merging exponents of a common base removes a node at least. -/
theorem size_of_commonBase? {u v b m n : Expr K} (h : commonBase? u v = some (b, m, n)) :
    b.size + m.size + n.size + 1 ≤ u.size + v.size := by
  have := size_pos v
  unfold commonBase? at h
  repeat' split at h
  all_goals simp only [Option.some.injEq, Prod.mk.injEq, reduceCtorEq] at h
  all_goals
    obtain ⟨rfl, rfl, rfl⟩ := h
    simp only [size] at *
    omega

omit [Scalar K] in
/-- A power with merged exponents weighs less than the product or
quotient it stands for. -/
theorem merged_shrinks {u v b x e : Expr K} (hx : b.size + x.size ≤ u.size + v.size)
    (hsize : e.size = u.size + v.size + 1) (hrank : 0 < e.rank) :
    (Reduct.again (pow b x)).Shrinks e :=
  shrinks_again (by simp only [size]; omega) hrank

theorem multiplyPowers_shrinks (u v : Expr K) : (multiplyPowers u v).Shrinks (mul u v) := by
  have hrank : 0 < (mul u v).rank := by simp only [rank]; split <;> omega
  have := size_pos v
  unfold multiplyPowers
  split
  · have := size_of_commonBase? (by assumption)
    exact merged_shrinks (by simp only [size]; omega) rfl hrank
  · split
    · have := size_of_commonBase? (by assumption)
      exact merged_shrinks (by simp only [size]; omega) rfl hrank
    · simp only [Reduct.Shrinks]
      split
      · simp only [size]; omega
      · exact Nat.le_refl _

theorem simplifyMul_shrinks (u v : Expr K) : (simplifyMul u v).Shrinks (mul u v) := by
  unfold simplifyMul
  split
  · simp
  · split
    · simp only [Reduct.Shrinks, size]; omega
    · split
      · simp only [Reduct.Shrinks, size]; omega
      · split
        · exact shrinks_again_of_lt (by simp only [size]; omega)
        · exact Nat.le_refl _
        · simp only [Reduct.Shrinks, div_def, size]; omega
        · exact Nat.le_refl _
        · exact multiplyPowers_shrinks _ _
  · split
    · simp only [Reduct.Shrinks, size]; omega
    · split
      · simp only [Reduct.Shrinks, size]; omega
      · refine scaled_shrinks (by simp only [size]; omega) ?_
        cases u <;> simp_all [rank, isConst]
  · exact scaled_shrinks (by simp only [size]; omega) rfl
  · exact Nat.le_refl _
  · refine scaled_shrinks (by simp only [size]; omega) ?_
    cases u <;> simp_all [rank, isConst]
  · exact Nat.le_refl _
  · exact multiplyPowers_shrinks _ _

theorem dividePowers_shrinks (u v : Expr K) : (dividePowers u v).Shrinks (div u v) := by
  unfold dividePowers
  split
  · simp only [Reduct.Shrinks, size]; omega
  · split
    · have := size_of_commonBase? (by assumption)
      exact merged_shrinks (by rw [sub_def]; simp only [size]; omega) rfl Nat.two_pos
    · exact Nat.le_refl _

theorem divideByConstant_shrinks (u : Expr K) (c : K) :
    (divideByConstant u c).Shrinks (div u (const c)) := by
  unfold divideByConstant
  split
  · exact scaled_shrinks (by simp only [size]; omega) rfl
  · split
    · split
      · exact scaled_shrinks (by simp only [size]; omega) rfl
      · exact Nat.le_refl _
    · exact dividePowers_shrinks _ _

theorem simplifyDiv_shrinks (u v : Expr K) : (simplifyDiv u v).Shrinks (div u v) := by
  unfold simplifyDiv
  split
  · split
    · simp
    · split
      · simp
      · split
        · simp
        · exact divideByConstant_shrinks _ _
  · split
    · simp only [Reduct.Shrinks, size]; omega
    · exact dividePowers_shrinks _ _
  · split
    · simp only [Reduct.Shrinks, size]; omega
    · exact divideByConstant_shrinks _ _
  · exact dividePowers_shrinks _ _

/-- Raising to a constant does not enlarge the power. -/
theorem size_raiseToConstant_le (u : Expr K) (n : K) :
    (raiseToConstant u n).size ≤ (pow u (const n)).size := by
  unfold raiseToConstant
  split
  · simp only [size]; omega
  · split
    · simp only [size]; omega
    · split
      · dsimp only
        split
        · simp
        · split
          · simp
          · exact Nat.le_refl _
      · split
        · simp only [size]; omega
        · exact Nat.le_refl _
      · exact Nat.le_refl _

theorem simplifyPow_shrinks (u v : Expr K) : (simplifyPow u v).Shrinks (pow u v) := by
  unfold simplifyPow
  split
  · exact size_raiseToConstant_le _ _
  · simp only [Reduct.Shrinks]
    split
    · simp only [size]; omega
    · exact Nat.le_refl _
  · exact Nat.le_refl _

/-- The special values of a function are no larger than its call. -/
theorem size_simplifyCall_le (f : Elementary) (u : Expr K) :
    (simplifyCall f u).size ≤ (call f u).size := by
  unfold simplifyCall
  repeat' split
  all_goals simp

/-- No rule enlarges the node it is for, and a rule that asks for another round hands
over something lighter.  This is what simplification terminates by. -/
theorem reduceRoot_shrinks (e : Expr K) : (reduceRoot e).Shrinks e := by
  cases e with
  | add u v => exact simplifyAdd_shrinks u v
  | sub u v => exact simplifySub_shrinks u v
  | mul u v => exact simplifyMul_shrinks u v
  | div u v => exact simplifyDiv_shrinks u v
  | pow u v => exact simplifyPow_shrinks u v
  | call f u => exact size_simplifyCall_le f u
  | var | const | named => exact Nat.le_refl _

/-! ### The pass -/

/-- A simplified form of a tree: no larger, and constant for a constant.  The
bounds travel with the tree, as the recursion needs them to go on. -/
structure Simplified (e : Expr K) where
  tree : Expr K
  size_le : tree.size ≤ e.size
  constant : e.isConst = true → tree.isConst = true

omit [Scalar K] in
/-- A node whose operands are exchanged for simplified ones weighs no more. -/
theorem weight_le_of_operands {u u' v v' : Expr K} (hu : u'.size ≤ u.size)
    (hv : v'.size ≤ v.size)
    (constant : u.isConst = true → u'.isConst = true) :
    (add u' v').weight ≤ (add u v).weight ∧ (sub u' v').weight ≤ (sub u v).weight ∧
    (mul u' v').weight ≤ (mul u v).weight ∧ (div u' v').weight ≤ (div u v).weight ∧
    (pow u' v').weight ≤ (pow u v).weight := by
  simp only [weight, size, rank]
  refine ⟨by omega, by omega, ?_, by omega, by omega⟩
  split <;> split <;> simp_all <;> omega

omit [Scalar K] in
/-- A call whose argument is exchanged for a simplified one weighs no more. -/
theorem weight_le_of_argument (f : Elementary) {u u' : Expr K} (hu : u'.size ≤ u.size) :
    (call f u').weight ≤ (call f u).weight := by
  simp only [weight, size, rank]
  omega

omit [Scalar K] in
/-- A part of a tree weighs less than the tree. -/
theorem weight_lt_of_size_lt {u e : Expr K} (smaller : u.size < e.size) : u.weight < e.weight := by
  have bound := rank_le u
  simp only [weight]
  omega

/-- Settles a node with simplified operands: applies the rule for its root and
simplifies once more where the rule asks for it. -/
def settle {e : Expr K} (node : Expr K) (compound : e.isConst = false)
    (hweight : node.weight ≤ e.weight)
    (simplifyAgain : (t : Expr K) → t.weight < e.weight → Simplified t) : Simplified e :=
  have shrinks := reduceRoot_shrinks node
  match reduceRoot node, shrinks with
  | .final s, hs =>
    ⟨s, Nat.le_trans hs (by have := rank_le e; simp only [weight] at hweight; omega),
      by simp [compound]⟩
  | .again t, ht =>
    let s := simplifyAgain t (Nat.lt_of_lt_of_le ht hweight)
    ⟨s.tree, Nat.le_trans s.size_le (size_le_of_weight_lt (Nat.lt_of_lt_of_le ht hweight)),
      by simp [compound]⟩

/-- The pass, with what bounds it. -/
def simplified (e : Expr K) : Simplified e :=
  match e with
  | var name => ⟨var name, Nat.le_refl _, id⟩
  | const c => ⟨const c, Nat.le_refl _, id⟩
  | named c => ⟨named c, Nat.le_refl _, id⟩
  | add u v =>
    let u' := simplified u
    let v' := simplified v
    settle (add u'.tree v'.tree) rfl
      (weight_le_of_operands u'.size_le v'.size_le u'.constant).1
      fun t _lighter => simplified t
  | sub u v =>
    let u' := simplified u
    let v' := simplified v
    settle (sub u'.tree v'.tree) rfl
      (weight_le_of_operands u'.size_le v'.size_le u'.constant).2.1
      fun t _lighter => simplified t
  | mul u v =>
    let u' := simplified u
    let v' := simplified v
    settle (mul u'.tree v'.tree) rfl
      (weight_le_of_operands u'.size_le v'.size_le u'.constant).2.2.1
      fun t _lighter => simplified t
  | div u v =>
    let u' := simplified u
    let v' := simplified v
    settle (div u'.tree v'.tree) rfl
      (weight_le_of_operands u'.size_le v'.size_le u'.constant).2.2.2.1
      fun t _lighter => simplified t
  | pow u v =>
    let u' := simplified u
    let v' := simplified v
    settle (pow u'.tree v'.tree) rfl
      (weight_le_of_operands u'.size_le v'.size_le u'.constant).2.2.2.2
      fun t _lighter => simplified t
  | call f u =>
    let u' := simplified u
    settle (call f u'.tree) rfl
      (weight_le_of_argument f u'.size_le)
      fun t _lighter => simplified t
termination_by e.weight
decreasing_by
  all_goals first
    | assumption
    | exact weight_lt_of_size_lt (Nat.lt_succ_of_le (Nat.le_add_right _ _))
    | exact weight_lt_of_size_lt (Nat.lt_succ_of_le (Nat.le_add_left _ _))
    | exact weight_lt_of_size_lt (Nat.lt_succ_self _)

/-- One pass of simplification, from the leaves up.  Every operand is
simplified before the rule for its node is applied. -/
def simplifyPass (e : Expr K) : Expr K := (simplified e).tree

/-- Repeats the pass while it changes the tree, up to a given number of times.
Trees are compared as the carrier compares its numbers. -/
def simplifyRounds : Nat → Expr K → Expr K
  | 0, e => e
  | rounds + 1, e =>
    let e' := e.simplifyPass
    if e' == e then e else simplifyRounds rounds e'

/-- Simplifies until the tree stops changing, in five passes at most.  One pass is not
enough where a rule near the root makes room for another below it. -/
def simplify (e : Expr K) : Expr K := simplifyRounds 4 e.simplifyPass

/-- The simplified derivative, which is what is shown, called and drawn. -/
def derivative (name : String) (e : Expr K) : Expr K := (e.diff name).simplify

end Expr

end Fluxion
