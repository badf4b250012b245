import Fluxion.Proofs.Exact

/-!
# Values under an assignment

A tree with several variables has a value once each of them stands for a number.  `Expr.valueAt`
is the case where all variables but one stand for nothing.  More definite assignments give more
definite values (`valueIn_mono`), and a variable that does not occur has no influence
(`valueIn_update_of_not_mentions`).
-/

namespace Fluxion

namespace Expr

section Carrier

variable {K : Type} [Scalar K]

/-- The value of the tree where each variable has its assigned value.  At a
point of one variable it is `valueAt`. -/
def valueIn (assignment : String → K) : Expr K → K
  | var name => assignment name
  | const c => c
  | named c => c.value
  | add u v => u.valueIn assignment + v.valueIn assignment
  | sub u v => u.valueIn assignment - v.valueIn assignment
  | mul u v => u.valueIn assignment * v.valueIn assignment
  | div u v => u.valueIn assignment / v.valueIn assignment
  | pow u v => Scalar.pow (u.valueIn assignment) (v.valueIn assignment)
  | call f u => f.value (u.valueIn assignment)

/-- The value at a point is the one under the assignment that knows this
point only. -/
theorem valueAt_eq_valueIn (name : String) (x : K) (e : Expr K) :
    e.valueAt name x = e.valueIn (Function.update (fun _ => Scalar.undefined) name x) := by
  induction e with
  | var other => simp [valueAt, valueIn, Function.update_apply]
  | const | named => rfl
  | add u v ihu ihv | sub u v ihu ihv | mul u v ihu ihv | div u v ihu ihv | pow u v ihu ihv =>
      simp only [valueAt, valueIn, ihu, ihv]
  | call f u ih => simp only [valueAt, valueIn, ih]

/-- The value does not depend on variables that do not occur. -/
theorem valueIn_update_of_not_mentions {name : String} {e : Expr K}
    (absent : e.mentions name = false) (assignment : String → K) (x : K) :
    e.valueIn (Function.update assignment name x) = e.valueIn assignment := by
  induction e with
  | var other =>
      have different : other ≠ name := by simpa [mentions] using absent
      simp [valueIn, Function.update_of_ne different]
  | const | named => rfl
  | add u v ihu ihv | sub u v ihu ihv | mul u v ihu ihv | div u v ihu ihv | pow u v ihu ihv =>
      simp only [mentions, Bool.or_eq_false_iff] at absent
      simp only [valueIn, ihu absent.1, ihv absent.2]
  | call f u ih => simp only [valueIn, ih absent]

end Carrier

/-! ### Values in exact arithmetic -/

section Exact

variable {a : String → Exact} {u v : Expr Exact} {y : ℝ}

/-- A constant is its own value. -/
@[simp] theorem valueIn_const (c : Exact) : (const c).valueIn a = c := rfl

@[simp] theorem valueIn_named (c : Constant) : (named c : Expr Exact).valueIn a = .real c.real :=
  c.value_exact

theorem valueIn_var (name : String) : (var name : Expr Exact).valueIn a = a name := rfl

theorem valueIn_int (n : ℤ) : (int n : Expr Exact).valueIn a = .real n := rfl

/-- A sum has a value exactly if both terms do.  The lemmas of the other nodes
invert their values in the same way. -/
@[simp] theorem valueIn_add : (add u v).valueIn a = .real y ↔
    ∃ b c, u.valueIn a = .real b ∧ v.valueIn a = .real c ∧ b + c = y :=
  Exact.add_eq_real

@[simp] theorem valueIn_sub : (sub u v).valueIn a = .real y ↔
    ∃ b c, u.valueIn a = .real b ∧ v.valueIn a = .real c ∧ b - c = y :=
  Exact.sub_eq_real

@[simp] theorem valueIn_mul : (mul u v).valueIn a = .real y ↔
    ∃ b c, u.valueIn a = .real b ∧ v.valueIn a = .real c ∧ b * c = y :=
  Exact.mul_eq_real

/-- A quotient has a value exactly if both operands do and the divisor is not zero. -/
@[simp] theorem valueIn_div : (div u v).valueIn a = .real y ↔
    ∃ b c, u.valueIn a = .real b ∧ v.valueIn a = .real c ∧ c ≠ 0 ∧ b / c = y :=
  Exact.div_eq_real

/-- A power has a value exactly if both operands do and the real power is defined. -/
@[simp] theorem valueIn_pow : (pow u v).valueIn a = .real y ↔
    ∃ b c, u.valueIn a = .real b ∧ v.valueIn a = .real c ∧ PowerDefined b c ∧ b ^ c = y :=
  Exact.pow_eq_real

/-- A call has a value exactly if its argument does and lies in the domain. -/
@[simp] theorem valueIn_call {f : Elementary} : (call f u).valueIn a = .real y ↔
    ∃ b, u.valueIn a = .real b ∧ f.Defined b ∧ f.real b = y :=
  Elementary.value_eq_real

/-- An assignment of more numbers changes no value that was there before. -/
theorem valueIn_mono {b : String → Exact} (extends_ : ∀ name x, a name = .real x → b name = .real x)
    {e : Expr Exact} (h : e.valueIn a = .real y) : e.valueIn b = .real y := by
  induction e generalizing y with
  | var name => exact extends_ name y h
  | const | named => exact h
  | add u v ihu ihv =>
      obtain ⟨p, q, hu, hv, rfl⟩ := valueIn_add.1 h
      exact valueIn_add.2 ⟨p, q, ihu hu, ihv hv, rfl⟩
  | sub u v ihu ihv =>
      obtain ⟨p, q, hu, hv, rfl⟩ := valueIn_sub.1 h
      exact valueIn_sub.2 ⟨p, q, ihu hu, ihv hv, rfl⟩
  | mul u v ihu ihv =>
      obtain ⟨p, q, hu, hv, rfl⟩ := valueIn_mul.1 h
      exact valueIn_mul.2 ⟨p, q, ihu hu, ihv hv, rfl⟩
  | div u v ihu ihv =>
      obtain ⟨p, q, hu, hv, nonzero, rfl⟩ := valueIn_div.1 h
      exact valueIn_div.2 ⟨p, q, ihu hu, ihv hv, nonzero, rfl⟩
  | pow u v ihu ihv =>
      obtain ⟨p, q, hu, hv, defined, rfl⟩ := valueIn_pow.1 h
      exact valueIn_pow.2 ⟨p, q, ihu hu, ihv hv, defined, rfl⟩
  | call f u ih =>
      obtain ⟨p, hu, defined, rfl⟩ := valueIn_call.1 h
      exact valueIn_call.2 ⟨p, ih hu, defined, rfl⟩

/-- A value that the point of one variable gives is there under every
assignment with that point. -/
theorem valueIn_of_valueAt {name : String} {x : Exact} {e : Expr Exact}
    (h : e.valueAt name x = .real y) (a : String → Exact) :
    e.valueIn (Function.update a name x) = .real y := by
  rw [valueAt_eq_valueIn] at h
  refine valueIn_mono (fun other z assigned => ?_) h
  by_cases same : other = name
  · subst same
    simpa using assigned
  · rw [Function.update_of_ne same] at assigned
    cases assigned

/-- A value at a point is the value everywhere if the variable does not occur. -/
theorem valueIn_of_valueAt_of_not_mentions {name : String} {x : Exact} {e : Expr Exact}
    (absent : e.mentions name = false) (h : e.valueAt name x = .real y) (a : String → Exact) :
    e.valueIn a = .real y := by
  rw [← valueIn_update_of_not_mentions absent a x]
  exact valueIn_of_valueAt h a

end Exact

end Expr

end Fluxion
