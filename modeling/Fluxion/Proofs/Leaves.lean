import Fluxion.Proofs.Passes

/-!
# Families told by leaves

A rule of simplification takes a node apart and puts its parts together in another way.  The only
leaves it brings in are whole numbers, the number `e` and constants that it computes from constants
of the node.  A family of trees that is told by the leaves, and has these among them, is therefore
closed under simplification (`Hereditary.closed`).
-/

namespace Fluxion.Expr

variable {K : Type} [Scalar K]

/-- A node belongs to the family exactly if its operands do, and the leaves
that rules bring in belong to it.  A quotient of constants is formed only
where it is whole, and a power only where it is finite. -/
structure Hereditary (Family : Expr K → Prop) : Prop where
  add {u v : Expr K} : Family (add u v) ↔ Family u ∧ Family v
  sub {u v : Expr K} : Family (sub u v) ↔ Family u ∧ Family v
  mul {u v : Expr K} : Family (mul u v) ↔ Family u ∧ Family v
  div {u v : Expr K} : Family (div u v) ↔ Family u ∧ Family v
  pow {u v : Expr K} : Family (pow u v) ↔ Family u ∧ Family v
  call (f : Elementary) {u : Expr K} : Family (call f u) ↔ Family u
  int (n : Int) : Family (int n)
  e : Family (named .e)
  sum {a b : K} : Family (const a) → Family (const b) → Family (const (a + b))
  difference {a b : K} : Family (const a) → Family (const b) → Family (const (a - b))
  product {a b : K} : Family (const a) → Family (const b) → Family (const (a * b))
  opposite {a : K} : Family (const a) → Family (const (-a))
  quotient {a b : K} : Family (const a) → Family (const b) → Scalar.isWhole (a / b) = true →
    Family (const (a / b))
  power {a b : K} : Family (const a) → Family (const b) → Scalar.isFinite (Scalar.pow a b) = true →
    Family (const (Scalar.pow a b))

namespace Hereditary

variable {Family : Expr K → Prop} (hereditary : Hereditary Family) {e u v : Expr K}

include hereditary

/-! ### The rules -/

/-- A family that holds products holds their coefficients and the rest, so
splitting one off stays inside. -/
theorem splitCoefficient (member : Family u) :
    Family (const u.splitCoefficient.1) ∧ Family u.splitCoefficient.2 := by
  unfold Expr.splitCoefficient
  split
  · exact hereditary.mul.1 member
  · exact ⟨hereditary.int 1, member⟩

/-- Collecting like terms stays in the family, if the family allows the
constants that it combines. -/
theorem collect {operation : Expr K → Expr K → Expr K} {combine : K → K → K}
    (combined : ∀ {a b : K}, Family (const a) → Family (const b) → Family (const (combine a b)))
    (left : Family u) (right : Family v) (joined : Family (operation u v)) :
    Family (collect operation combine u v).tree := by
  obtain ⟨first, term⟩ := hereditary.splitCoefficient left
  obtain ⟨second, -⟩ := hereditary.splitCoefficient right
  simp only [Expr.collect]
  split
  · exact hereditary.mul.2 ⟨combined first second, term⟩
  · exact joined

/-- The rule for sums stays in the family.  The rules below follow the same
pattern, one operation each. -/
theorem simplifyAdd (left : Family u) (right : Family v) : Family (simplifyAdd u v).tree := by
  have collected : Family (Expr.collect Expr.add (· + ·) u v).tree :=
    hereditary.collect hereditary.sum left right (hereditary.add.2 ⟨left, right⟩)
  unfold Expr.simplifyAdd
  split
  · exact hereditary.sum left right
  · split
    · exact right
    · exact collected
  · split
    · exact left
    · exact collected
  · exact collected

/-- Differences stay inside a family that simplification cannot leave. -/
theorem simplifySub (left : Family u) (right : Family v) : Family (simplifySub u v).tree := by
  have collected : Family (Expr.collect Expr.sub (· - ·) u v).tree :=
    hereditary.collect hereditary.difference left right (hereditary.sub.2 ⟨left, right⟩)
  unfold Expr.simplifySub
  split
  · exact hereditary.difference left right
  · split
    · exact hereditary.mul.2 ⟨hereditary.int (-1), right⟩
    · exact collected
  · split
    · exact left
    · split
      · exact hereditary.add.2 ⟨left, hereditary.opposite right⟩
      · exact collected
  · split
    · exact hereditary.int 0
    · exact collected

/-- The base and the exponents of powers are parts of them, or one. -/
theorem of_commonBase? {b m n : Expr K} (left : Family u) (right : Family v)
    (h : commonBase? u v = some (b, m, n)) : Family b ∧ Family m ∧ Family n := by
  unfold commonBase? at h
  split at h
  · obtain ⟨base, exponent⟩ := hereditary.pow.1 left
    split at h
    · cases h
      exact ⟨base, exponent, (hereditary.pow.1 right).2⟩
    · split at h
      · cases h
        exact ⟨base, exponent, hereditary.int 1⟩
      · cases h
  · obtain ⟨base, exponent⟩ := hereditary.pow.1 left
    split at h
    · cases h
      exact ⟨base, exponent, hereditary.int 1⟩
    · cases h
  · cases h

/-- Merging powers makes sums of exponents and powers, both of which a family
holds with its members. -/
theorem multiplyPowers (left : Family u) (right : Family v) :
    Family (multiplyPowers u v).tree := by
  unfold Expr.multiplyPowers
  split
  · next merged =>
      obtain ⟨base, exponents⟩ := hereditary.of_commonBase? left right merged
      exact hereditary.pow.2 ⟨base, hereditary.add.2 exponents⟩
  · split
    · next merged =>
        obtain ⟨base, exponents⟩ := hereditary.of_commonBase? right left merged
        exact hereditary.pow.2 ⟨base, hereditary.add.2 exponents⟩
    · simp only [Reduct.tree]
      split
      · exact hereditary.pow.2 ⟨left, hereditary.int 2⟩
      · exact hereditary.mul.2 ⟨left, right⟩

/-- Products stay inside, whichever rule applies. -/
theorem simplifyMul (left : Family u) (right : Family v) : Family (simplifyMul u v).tree := by
  have kept : Family (Expr.mul u v) := hereditary.mul.2 ⟨left, right⟩
  unfold Expr.simplifyMul
  split
  · exact hereditary.product left right
  · split
    · exact hereditary.int 0
    · split
      · exact right
      · split
        · obtain ⟨inner, factor⟩ := hereditary.mul.1 right
          exact hereditary.mul.2 ⟨hereditary.product left inner, factor⟩
        · exact kept
        · obtain ⟨numerator, denominator⟩ := hereditary.div.1 right
          exact hereditary.div.2 ⟨hereditary.product left numerator, denominator⟩
        · exact kept
        · exact hereditary.multiplyPowers left right
  · split
    · exact hereditary.int 0
    · split
      · exact left
      · exact hereditary.mul.2 ⟨right, left⟩
  · obtain ⟨coefficient, factor⟩ := hereditary.mul.1 left
    exact hereditary.mul.2 ⟨coefficient, hereditary.mul.2 ⟨factor, right⟩⟩
  · exact kept
  · obtain ⟨coefficient, factor⟩ := hereditary.mul.1 right
    exact hereditary.mul.2 ⟨coefficient, hereditary.mul.2 ⟨left, factor⟩⟩
  · exact kept
  · exact hereditary.multiplyPowers left right

/-- Merging powers in a quotient makes differences of exponents, which
stay inside too. -/
theorem dividePowers (left : Family u) (right : Family v) : Family (dividePowers u v).tree := by
  unfold Expr.dividePowers
  split
  · exact hereditary.int 1
  · split
    · next merged =>
        obtain ⟨base, exponents⟩ := hereditary.of_commonBase? left right merged
        exact hereditary.pow.2 ⟨base, hereditary.sub.2 exponents⟩
    · exact hereditary.div.2 ⟨left, right⟩

/-- Division by a constant moves it into a coefficient or leaves it where it is. -/
theorem divideByConstant {c : K} (left : Family u) (right : Family (const c)) :
    Family (divideByConstant u c).tree := by
  unfold Expr.divideByConstant
  split
  · exact hereditary.mul.2 ⟨hereditary.int (-1), left⟩
  · split
    · split
      · next divides =>
          obtain ⟨coefficient, factor⟩ := hereditary.mul.1 left
          have whole := (Bool.and_eq_true_iff.1 divides).2
          exact hereditary.mul.2 ⟨hereditary.quotient coefficient right whole, factor⟩
      · exact hereditary.div.2 ⟨left, right⟩
    · exact hereditary.dividePowers left right

/-- Quotients stay inside, whichever rule applies. -/
theorem simplifyDiv (left : Family u) (right : Family v) : Family (simplifyDiv u v).tree := by
  unfold Expr.simplifyDiv
  split
  · split
    · next divides =>
        exact hereditary.quotient left right (Bool.and_eq_true_iff.1 divides).2
    · split
      · exact hereditary.int 0
      · split
        · exact left
        · exact hereditary.divideByConstant left right
  · split
    · exact hereditary.int 0
    · exact hereditary.dividePowers left right
  · split
    · exact left
    · exact hereditary.divideByConstant left right
  · exact hereditary.dividePowers left right

/-- Powers with a constant exponent stay inside.  Two exponents may be
multiplied, which is a product of constants. -/
theorem raiseToConstant {n : K} (base : Family u) (exponent : Family (const n)) :
    Family (raiseToConstant u n) := by
  have kept : Family (Expr.pow u (const n)) := hereditary.pow.2 ⟨base, exponent⟩
  unfold Expr.raiseToConstant
  split
  · exact hereditary.int 1
  · split
    · exact base
    · split
      · dsimp only
        split
        · exact hereditary.int 1
        · split
          · next folds =>
              exact hereditary.power base exponent (Bool.and_eq_true_iff.1 folds).1
          · exact kept
      · split
        · obtain ⟨inner, factor⟩ := hereditary.pow.1 base
          exact hereditary.pow.2 ⟨inner, hereditary.product factor exponent⟩
        · exact kept
      · exact kept

/-- Powers stay inside, whether or not the exponent is a constant. -/
theorem simplifyPow (base : Family u) (exponent : Family v) : Family (simplifyPow u v).tree := by
  unfold Expr.simplifyPow
  split
  · exact hereditary.raiseToConstant base exponent
  · simp only [Reduct.tree]
    split
    · exact hereditary.int 1
    · exact hereditary.pow.2 ⟨base, exponent⟩
  · exact hereditary.pow.2 ⟨base, exponent⟩

/-- The special values of functions are constants of the family. -/
theorem simplifyCall (f : Elementary) (argument : Family u) : Family (simplifyCall f u) := by
  have kept : Family (Expr.call f u) := (hereditary.call f).2 argument
  unfold Expr.simplifyCall
  repeat' split
  all_goals first | exact hereditary.int _ | exact hereditary.e | exact argument | exact kept

/-- No rule leaves the family. -/
theorem reduceRoot (member : Family e) : Family (reduceRoot e).tree := by
  cases e with
  | add u v => exact hereditary.simplifyAdd (hereditary.add.1 member).1 (hereditary.add.1 member).2
  | sub u v => exact hereditary.simplifySub (hereditary.sub.1 member).1 (hereditary.sub.1 member).2
  | mul u v => exact hereditary.simplifyMul (hereditary.mul.1 member).1 (hereditary.mul.1 member).2
  | div u v => exact hereditary.simplifyDiv (hereditary.div.1 member).1 (hereditary.div.1 member).2
  | pow u v => exact hereditary.simplifyPow (hereditary.pow.1 member).1 (hereditary.pow.1 member).2
  | call f u => exact hereditary.simplifyCall f ((hereditary.call f).1 member)
  | var | const | named => exact member

/-- Exchanging operands for members stays in the family. -/
theorem mapOperands {g : Expr K → Expr K} (member : Family e)
    (each : ∀ o ∈ e.operands, Family o → Family (g o)) : Family (e.mapOperands g) := by
  cases e with
  | add u v =>
      have operands := hereditary.add.1 member
      exact hereditary.add.2 (operands.imp (each u (.head _)) (each v (.tail _ (.head _))))
  | sub u v =>
      have operands := hereditary.sub.1 member
      exact hereditary.sub.2 (operands.imp (each u (.head _)) (each v (.tail _ (.head _))))
  | mul u v =>
      have operands := hereditary.mul.1 member
      exact hereditary.mul.2 (operands.imp (each u (.head _)) (each v (.tail _ (.head _))))
  | div u v =>
      have operands := hereditary.div.1 member
      exact hereditary.div.2 (operands.imp (each u (.head _)) (each v (.tail _ (.head _))))
  | pow u v =>
      have operands := hereditary.pow.1 member
      exact hereditary.pow.2 (operands.imp (each u (.head _)) (each v (.tail _ (.head _))))
  | call f u => exact (hereditary.call f).2 (each u (.head _) ((hereditary.call f).1 member))
  | var | const | named => exact member

/-- Simplification does not leave the family.  This is the one result the
rules above are for; families of trees are given by their nodes and leaves. -/
theorem closed : Closed Family where
  operands member each := hereditary.mapOperands member each
  rule member := hereditary.reduceRoot member

end Hereditary

end Fluxion.Expr
