import Mathlib
import Fluxion.Proofs.Binary64
import Fluxion.Proofs.Compilation

/-!
# Overflow on the way to a value

A formula that is evaluated in machine numbers has a finite value only if its operations have.  There
are few exceptions.  An infinite divisor makes a quotient zero, a power may not depend on its base or
on its exponent, the exponential is zero at the negative infinity and the inverse tangent is bounded;
these operands are the `absorbing` ones.  Every other operation passes on what is not finite
(`finiteAt_operand`).  So an overflow inside a formula with a finite value lies within an absorbing
operand, and that operand has itself overflowed or become undefined (`finiteAt_of_within`).

What the elementary functions do with infinities is their documentation's to say
(`Platform.PassesOn`); roots are rounded correctly, and the inverse sine and cosine refuse infinities
by their domain.
-/

namespace Fluxion

section Order

variable [Platform] {a b : Float}

theorem le_of_atMost (h : Scalar.atMost a b = true) : a ≤ b := by
  rw [Scalar.atMost, Bool.or_eq_true] at h
  exact Binary64.le_of_lt_or_beq (h.imp_left of_decide_eq_true)

/-- What lies between minus one and one is finite. -/
theorem isFinite_of_unit (h : (Scalar.atMost (Scalar.ofInt (-1)) a &&
    Scalar.atMost a (Scalar.ofInt 1)) = true) : a.isFinite = true := by
  obtain ⟨below, above⟩ := Bool.and_eq_true_iff.1 h
  refine Binary64.isFinite_of_between (le_of_atMost below) (le_of_atMost above) ?_ ?_
  · change (Float.ofInt (-1)).isFinite = true
    decide +kernel
  · change (Float.ofInt 1).isFinite = true
    decide +kernel

end Order

/-- The circular functions are undefined at infinities, and the logarithm is infinite
at the positive one; none of them is a number where its argument is not. -/
structure Platform.PassesOn (platform : Platform) : Prop where
  sin : ∀ a : Float, (platform.sin a).isFinite = true → a.isFinite = true
  cos : ∀ a : Float, (platform.cos a).isFinite = true → a.isFinite = true
  tan : ∀ a : Float, (platform.tan a).isFinite = true → a.isFinite = true
  log : ∀ a : Float, (platform.log a).isFinite = true → a.isFinite = true

namespace Compiled

section Parts

variable {K : Type}

/-- The operands of the outermost operation. -/
def operands : Compiled K → List (Compiled K)
  | point | const _ => []
  | add u v | sub u v | mul u v | div u v | pow u v => [u, v]
  | call _ u => [u]

/-- The operands of the outermost operation that can be infinite or undefined
where the result is finite. -/
def absorbing : Compiled K → List (Compiled K)
  | div _ v => [v]
  | pow u v => [u, v]
  | call .exp u | call .arctan u => [u]
  | _ => []

/-- Being a part of a formula, the formula itself included. -/
inductive Within : Compiled K → Compiled K → Prop
  | refl (c : Compiled K) : Within c c
  | operand {u o c : Compiled K} (within : Within u o) (member : o ∈ c.operands) : Within u c

end Parts

variable [platform : Platform] {x a : Float} {f : Elementary} {c u o : Compiled Float}

/-- The formula has a finite value at a point.  Values that are not finite may
still be absorbed by what is done with them. -/
def FiniteAt (x : Float) (c : Compiled Float) : Prop :=
  ∃ value, c.evaluate x = .ok value ∧ value.isFinite = true

/-- The formula has a value at a point, and it is infinite or undefined. -/
def OverflowsAt (x : Float) (c : Compiled Float) : Prop :=
  ∃ value, c.evaluate x = .ok value ∧ value.isFinite = false

/-- Operands with finite values are finite wherever they stand in the node. -/
theorem finiteAt_of_pair {v : Compiled Float} {b : Float} (member : o ∈ [u, v])
    (ha : u.evaluate x = .ok a) (hb : v.evaluate x = .ok b)
    (finite : a.isFinite = true ∧ b.isFinite = true) : o.FiniteAt x := by
  obtain rfl | rfl := List.mem_pair.1 member
  · exact ⟨a, ha, finite.1⟩
  · exact ⟨b, hb, finite.2⟩

/-- An operand with a value is finite, or is one of those whose infinite value
an operation absorbs. -/
theorem finiteAt_or_absorbed (absorbed : o ∈ c.absorbing) (value : o.evaluate x = .ok a) :
    o.FiniteAt x ∨ o ∈ c.absorbing ∧ o.OverflowsAt x := by
  cases finite : a.isFinite with
  | true => exact .inl ⟨a, value, finite⟩
  | false => exact .inr ⟨absorbed, a, value, finite⟩

/-- A function is finite at a finite argument only, unless it is bounded
at an infinity. -/
theorem isFinite_of_value (passesOn : platform.PassesOn) (inside : f.inDomain a = true)
    (finite : (f.value a).isFinite = true) : a.isFinite = true ∨ f = .exp ∨ f = .arctan := by
  cases f with
  | sin => exact .inl (passesOn.sin a finite)
  | cos => exact .inl (passesOn.cos a finite)
  | tan => exact .inl (passesOn.tan a finite)
  | arcsin => exact .inl (isFinite_of_unit inside)
  | arccos => exact .inl (isFinite_of_unit inside)
  | arctan => exact .inr (.inr rfl)
  | exp => exact .inr (.inl rfl)
  | log => exact .inl (passesOn.log a finite)
  | sqrt => exact .inl (Binary64.isFinite_of_sqrt finite)

/-- Where an operation has a finite result, its operands are finite, or they
are absorbed. -/
theorem finiteAt_operand (passesOn : platform.PassesOn) (finite : c.FiniteAt x)
    (member : o ∈ c.operands) : o.FiniteAt x ∨ o ∈ c.absorbing ∧ o.OverflowsAt x := by
  obtain ⟨result, value, finite⟩ := finite
  cases c with
  | point => cases member
  | const b => cases member
  | add u v =>
    obtain ⟨a, b, ha, hb, rfl⟩ := evaluate_add value
    exact .inl (finiteAt_of_pair member ha hb (Binary64.isFinite_of_add finite))
  | sub u v =>
    obtain ⟨a, b, ha, hb, rfl⟩ := evaluate_sub value
    exact .inl (finiteAt_of_pair member ha hb (Binary64.isFinite_of_sub finite))
  | mul u v =>
    obtain ⟨a, b, ha, hb, rfl⟩ := evaluate_mul value
    exact .inl (finiteAt_of_pair member ha hb (Binary64.isFinite_of_mul finite))
  | div u v =>
    obtain ⟨a, b, ha, hb, rfl⟩ := evaluate_div value
    obtain rfl | rfl := List.mem_pair.1 member
    · exact .inl ⟨a, ha, Binary64.isFinite_of_div finite⟩
    · exact finiteAt_or_absorbed List.mem_cons_self hb
  | pow u v =>
    obtain ⟨a, b, ha, hb, rfl⟩ := evaluate_pow value
    obtain rfl | rfl := List.mem_pair.1 member
    · exact finiteAt_or_absorbed member ha
    · exact finiteAt_or_absorbed member hb
  | call f u =>
    obtain ⟨a, ha, inside, rfl⟩ := evaluate_call value
    obtain rfl := List.mem_singleton.1 member
    obtain argument | rfl | rfl := isFinite_of_value passesOn inside finite
    · exact .inl ⟨a, ha, argument⟩
    · exact finiteAt_or_absorbed member ha
    · exact finiteAt_or_absorbed member ha

/-- Going down from a formula with a finite value to one of its parts, values
are finite as far as the first absorbing operand that is not. -/
theorem finiteAt_of_within (passesOn : platform.PassesOn) (within : u.Within c)
    (finite : c.FiniteAt x) :
    u.FiniteAt x ∨ ∃ n o : Compiled Float, n.Within c ∧ n.FiniteAt x ∧
      o ∈ n.absorbing ∧ o.OverflowsAt x ∧ u.Within o := by
  induction within with
  | refl => exact .inl finite
  | @operand o c within member inductionHypothesis =>
    obtain here | ⟨absorbed, overflow⟩ := finiteAt_operand passesOn finite member
    · refine (inductionHypothesis here).imp_right ?_
      rintro ⟨n, other, deeper, rest⟩
      exact ⟨n, other, deeper.operand member, rest⟩
    · exact .inr ⟨c, o, .refl c, finite, absorbed, overflow, within⟩

end Compiled

/-- The value of a formula is finite.  Each of its parts has a finite value as
well, or lies within a divisor, within the base or exponent of a power, or
within the argument of an exponential or an inverse tangent, which is itself
not finite, and whose operation is finite nevertheless.  All other operations
pass on what is not finite, so an overflow in them is seen in the end. -/
theorem Callable.finite_value_hides_only_absorbed_overflow [platform : Platform]
    (passesOn : platform.PassesOn) (f : Callable Float) {x v : Float} (value : f.eval x = .ok v) :
    v.isFinite = true ∧ ∀ u : Compiled Float, u.Within f.compiled →
      u.FiniteAt x ∨ ∃ n o : Compiled Float, n.Within f.compiled ∧ n.FiniteAt x ∧
        o ∈ n.absorbing ∧ o.OverflowsAt x ∧ u.Within o := by
  obtain ⟨evaluates, finite⟩ := eval_eq_ok value
  exact ⟨finite, fun u within => Compiled.finiteAt_of_within passesOn within ⟨v, evaluates, finite⟩⟩

/-- A platform whose functions are right at one point each, and undefined or
infinite where they have to be. -/
abbrev Platform.sparse : Platform where
  pow a _ := a
  exp a := 1.0 + a
  log a := a - 1.0
  sin a := a - a
  cos a := 1.0 + (a - a)
  tan a := a - a
  arcsin a := a
  arccos a := 1.0 - a
  arctan a := a

/-- The platform that knows its functions at few points passes on what
is not finite. -/
theorem Platform.passesOn_sparse : Platform.sparse.PassesOn where
  sin _ finite := (Binary64.isFinite_of_sub finite).1
  cos _ finite := (Binary64.isFinite_of_sub (Binary64.isFinite_of_add finite).2).1
  tan _ finite := (Binary64.isFinite_of_sub finite).1
  log _ finite := (Binary64.isFinite_of_sub finite).1

/-- One over a square that overflows is zero. -/
theorem Callable.finite_value_hides_only_absorbed_overflow_of_reciprocal :
    letI := Platform.sparse
    let square : Compiled Float := .mul .point .point
    ∃ f : Callable Float, f.compiled = .div (.const 1.0) square ∧ f.eval 1e200 = .ok 0.0 ∧
      ¬square.FiniteAt 1e200 ∧ ∃ n o : Compiled Float, n.Within f.compiled ∧
        n.FiniteAt 1e200 ∧ o ∈ n.absorbing ∧ o.OverflowsAt 1e200 ∧ square.Within o := by
  let platform := Platform.sparse
  intro square
  let f : Callable Float :=
    ⟨"1/(x*x)", .div (.const 1.0) (.mul (.var variableName) (.var variableName)), _, rfl⟩
  have overflow : ¬square.FiniteAt 1e200 := by
    rintro ⟨value, evaluates, finite⟩
    have infinite : ((1e200 : Float) * 1e200).isFinite = false := by decide +kernel
    rw [← Except.ok.inj evaluates] at finite
    exact absurd finite (ne_true_of_eq_false infinite)
  have value : f.eval 1e200 = .ok 0.0 := eq_ok_of_toOption (by decide +kernel)
  have parts := (finite_value_hides_only_absorbed_overflow Platform.passesOn_sparse f value).2
  have within : square.Within f.compiled :=
    (Compiled.Within.refl square).operand (List.mem_cons_of_mem _ List.mem_cons_self)
  exact ⟨f, rfl, value, overflow, (parts square within).resolve_left overflow⟩

end Fluxion
