import Mathlib
import Fluxion.Expr.Simplify
import Fluxion.Proofs.Simplification

/-!
# Derivatives are derivatives

The derivative tree of a formula has, where it and the formula have values, the rate of change of
the formula as its value.  The proof goes through jets and has two halves that do not know of each
other:

* `jet_of_diff`: the value of the derivative tree is the slope of the jet, an algebraic statement
  about the rules of differentiation at one point;
* `hasDerivAt_of_jet`: the slope of the jet is the derivative of the function that the formula
  denotes, a statement of analysis that does not mention derivative trees.

What depends on the variable is decided by its occurrence on both sides (`moves_of_jet`), which is
what the rules for powers ask for.
-/

namespace Fluxion

open Filter Topology

namespace Expr

/-- The assignment under which one variable moves through a point at the rate
one and all others stand still. -/
noncomputable def rising (a : String → Exact) (name : String) (x : ℝ) : String → Option Jet :=
  Function.update (fun other => (a other).jet) name (some (.moving x 1))

section Rising

variable {a : String → Exact} {name : String} {x : ℝ} {e : Expr Exact} {j : Jet}

@[simp] theorem rising_self (a : String → Exact) (name : String) (x : ℝ) :
    rising a name x name = some (.moving x 1) := Function.update_self ..

theorem rising_of_ne {other : String} (different : other ≠ name) :
    rising a name x other = (a other).jet := Function.update_of_ne different ..

/-- The jet of a tree without the variable is its value, standing still,
wherever the variable goes. -/
theorem jet_rising_of_not_mentions {v : ℝ}
    (absent : e.mentions name = false)
    (value : e.valueIn (Function.update a name (.real x)) = .real v) :
    e.jet (rising a name x) = some (.still v) := by
  rw [valueIn_update_of_not_mentions absent] at value
  rw [rising, jet_update_of_not_mentions absent]
  exact jet_of_valueIn value

/-- A jet starts at the value that the tree has at the point. -/
theorem valueIn_of_jet_rising
    (h : e.jet (rising a name x) = some j) :
    e.valueIn (Function.update a name (.real x)) = .real j.value := by
  refine valueIn_of_jet (fun other k assigned => ?_) h
  by_cases same : other = name
  · subst same
    rw [rising_self, Option.some.injEq] at assigned
    subst assigned
    rw [Function.update_self, Jet.moving_value]
  · rw [rising_of_ne same] at assigned
    obtain ⟨v, value, rfl⟩ := Exact.jet_eq_some.1 assigned
    rw [Function.update_of_ne same, value, Jet.still_value]

/-- A tree moves with a variable exactly if the variable occurs in it.  The
flag of a jet is therefore known from the tree alone. -/
theorem moves_of_jet (h : e.jet (rising a name x) = some j) : j.moves = e.mentions name := by
  induction e generalizing j with
  | var other =>
      rw [jet_var] at h
      by_cases same : other = name
      · subst same
        rw [rising_self, Option.some.injEq] at h
        subst h
        simp [mentions]
      · rw [rising_of_ne same] at h
        obtain ⟨v, -, rfl⟩ := Exact.jet_eq_some.1 h
        simp [mentions, same]
  | const c =>
      obtain ⟨v, -, rfl⟩ := jet_const.1 h
      rfl
  | named c =>
      cases h
      rfl
  | add u v ihu ihv =>
      obtain ⟨j, k, hj, hk, rfl⟩ := jet_add.1 h
      rw [Jet.add_moves, ihu hj, ihv hk, mentions]
  | sub u v ihu ihv =>
      obtain ⟨j, k, hj, hk, rfl⟩ := jet_sub.1 h
      rw [Jet.sub_moves, ihu hj, ihv hk, mentions]
  | mul u v ihu ihv =>
      obtain ⟨j, k, hj, hk, rfl⟩ := jet_mul.1 h
      rw [Jet.mul_moves, ihu hj, ihv hk, mentions]
  | div u v ihu ihv =>
      obtain ⟨j, k, hj, hk, -, rfl⟩ := jet_div.1 h
      rw [Jet.div_moves, ihu hj, ihv hk, mentions]
  | pow u v ihu ihv =>
      obtain ⟨j, k, hj, hk, -, rfl⟩ := jet_pow.1 h
      rw [Jet.pow_moves, ihu hj, ihv hk, mentions]
  | call f u ih =>
      obtain ⟨j, hj, -, rfl⟩ := jet_call.1 h
      rw [Jet.call_moves, ih hj, mentions]

end Rising

/-! ### Values of derivative trees -/

section Values

variable {b : String → Exact} {name : String} {u v : Expr Exact} {d : ℝ}

theorem valueIn_squared :
    (squared u).valueIn b = .real d ↔ ∃ p, u.valueIn b = .real p ∧ p ^ 2 = d := by
  rw [squared, valueIn_pow]
  constructor
  · rintro ⟨p, q, hp, hq, -, rfl⟩
    cases hq
    exact ⟨p, hp, by norm_num⟩
  · rintro ⟨p, hp, rfl⟩
    exact ⟨p, _, hp, rfl, .of_natCast p 2, by norm_num⟩

/-- The sum rule: the derivative of a sum has a value exactly if both
derivatives have one.  Differences are alike. -/
theorem valueIn_diff_add :
    ((add u v).diff name).valueIn b = .real d ↔
      ∃ p' q', (u.diff name).valueIn b = .real p' ∧ (v.diff name).valueIn b = .real q' ∧
        p' + q' = d := valueIn_add

theorem valueIn_diff_sub :
    ((sub u v).diff name).valueIn b = .real d ↔
      ∃ p' q', (u.diff name).valueIn b = .real p' ∧ (v.diff name).valueIn b = .real q' ∧
        p' - q' = d := valueIn_sub

/-- The product rule: besides the derivatives the factors themselves need values. -/
theorem valueIn_diff_mul :
    ((mul u v).diff name).valueIn b = .real d ↔
      ∃ p q p' q', u.valueIn b = .real p ∧ v.valueIn b = .real q ∧
        (u.diff name).valueIn b = .real p' ∧ (v.diff name).valueIn b = .real q' ∧
        p' * q + p * q' = d := by
  simp only [diff_mul, add_def, mul_def, valueIn_add, valueIn_mul]
  constructor
  · rintro ⟨_, _, ⟨p', q, hp', hq, rfl⟩, ⟨p, q', hp, hq', rfl⟩, rfl⟩
    exact ⟨p, q, p', q', hp, hq, hp', hq', rfl⟩
  · rintro ⟨p, q, p', q', hp, hq, hp', hq', rfl⟩
    exact ⟨_, _, ⟨p', q, hp', hq, rfl⟩, ⟨p, q', hp, hq', rfl⟩, rfl⟩

/-- The quotient rule.  The other direction fails where the divisor is zero,
so only this one is stated. -/
theorem valueIn_diff_div
    (slope : ((div u v).diff name).valueIn b = .real d) :
    ∃ p q p' q', u.valueIn b = .real p ∧ v.valueIn b = .real q ∧
      (u.diff name).valueIn b = .real p' ∧ (v.diff name).valueIn b = .real q' ∧
      q ≠ 0 ∧ (p' * q - q' * p) / q ^ 2 = d := by
  simp only [diff_div, div_def, sub_def, mul_def, valueIn_div, valueIn_sub, valueIn_mul,
    valueIn_squared] at slope
  obtain ⟨_, _, ⟨_, _, ⟨p', q, hp', hq, rfl⟩, ⟨q', p, hq', hp, rfl⟩, rfl⟩, ⟨_, hq₂, rfl⟩, nonzero,
    rfl⟩ := slope
  cases hq.symm.trans hq₂
  exact ⟨p, q, p', q', hp, hq, hp', hq', right_ne_zero_of_mul (sq q ▸ nonzero), rfl⟩

/-- The rule for powers whose exponent does not depend on the variable.
Lowering the exponent may cost the value at zero, and then the derivative tree
has none either. -/
theorem valueIn_diff_pow_of_exponent
    (exponent : v.mentions name = false)
    (slope : ((pow u v).diff name).valueIn b = .real d) :
    ∃ p q p', u.valueIn b = .real p ∧ v.valueIn b = .real q ∧
      (u.diff name).valueIn b = .real p' ∧
      PowerDefined p (q - 1) ∧ q * p ^ (q - 1) * p' = d := by
  rw [diff_pow_of_exponent exponent] at slope
  simp only [mul_def, sub_def, pow_def, valueIn_mul, valueIn_pow, valueIn_sub] at slope
  obtain ⟨_, p', ⟨q, _, hq, ⟨p, _, hp, ⟨_, _, hq₂, ⟨⟩, rfl⟩, lower, rfl⟩, rfl⟩, hp', rfl⟩ := slope
  cases hq.symm.trans hq₂
  rw [Int.cast_one] at lower ⊢
  exact ⟨p, q, p', hp, hq, hp', lower, rfl⟩

/-- The rule for powers of which only the exponent depends on the variable. -/
theorem valueIn_diff_pow_of_base
    (base : u.mentions name = false) (exponent : v.mentions name = true)
    (slope : ((pow u v).diff name).valueIn b = .real d) :
    ∃ p q q', u.valueIn b = .real p ∧ v.valueIn b = .real q ∧
      (v.diff name).valueIn b = .real q' ∧ 0 < p ∧ p ^ q * Real.log p * q' = d := by
  rw [diff_pow_of_base base exponent] at slope
  simp only [mul_def, pow_def, valueIn_mul, valueIn_pow, valueIn_call] at slope
  obtain ⟨_, q', ⟨_, _, ⟨p, q, hp, hq, -, rfl⟩, ⟨_, hp₂, positive, rfl⟩, rfl⟩, hq', rfl⟩ := slope
  cases hp.symm.trans hp₂
  exact ⟨p, q, q', hp, hq, hq', positive, rfl⟩

/-- The rule for powers whose base and exponent both depend on the variable.
It goes through the logarithm, so the base must be above zero. -/
theorem valueIn_diff_pow
    (base : u.mentions name = true) (exponent : v.mentions name = true)
    (slope : ((pow u v).diff name).valueIn b = .real d) :
    ∃ p q p' q', u.valueIn b = .real p ∧ v.valueIn b = .real q ∧
      (u.diff name).valueIn b = .real p' ∧ (v.diff name).valueIn b = .real q' ∧
      0 < p ∧ p ^ q * (q' * Real.log p + q * p' / p) = d := by
  rw [diff_pow base exponent] at slope
  simp only [mul_def, add_def, div_def, pow_def, valueIn_mul, valueIn_add, valueIn_div,
    valueIn_pow, valueIn_call] at slope
  obtain ⟨_, _, ⟨p, q, hp, hq, -, rfl⟩, ⟨_, _, ⟨q', _, hq', ⟨_, hp₂, positive, rfl⟩, rfl⟩,
    ⟨_, _, ⟨_, p', hq₂, hp', rfl⟩, hp₃, -, rfl⟩, rfl⟩, rfl⟩ := slope
  cases hp.symm.trans hp₂
  cases hp.symm.trans hp₃
  cases hq.symm.trans hq₂
  exact ⟨p, q, p', q', hp, hq, hp', hq', positive, rfl⟩

/-- The derivative of a logarithm has a value wherever the quotient has one,
also left of zero, where the logarithm itself has none. -/
theorem valueIn_diff_log :
    ((call .log u).diff name).valueIn b = .real d ↔
      ∃ p p', u.valueIn b = .real p ∧ (u.diff name).valueIn b = .real p' ∧ p ≠ 0 ∧ p' / p = d := by
  simp only [diff_call, chainRule, div_def, valueIn_div]
  constructor
  · rintro ⟨p', p, hp', hp, nonzero, rfl⟩
    exact ⟨p, p', hp, hp', nonzero, rfl⟩
  · rintro ⟨p, p', hp, hp', nonzero, rfl⟩
    exact ⟨p', p, hp', hp, nonzero, rfl⟩

/-- The derivatives of arcsine and arccosine exist strictly inside the domain only. -/
theorem inside_of_sqrt_ne_zero {p : ℝ}
    (nonzero : Elementary.sqrt.real (1 - p ^ 2) ≠ 0) :
    -1 < p ∧ p < 1 := by
  have positive : 0 < 1 - p ^ 2 := Real.sqrt_ne_zero'.1 nonzero
  constructor <;> nlinarith

/-- Where a derivative by the chain rule exists, the function is differentiable, and
the rule multiplies its derivative by that of the argument. -/
theorem valueIn_diff_call (f : Elementary) {p : ℝ}
    (argument : u.valueIn b = .real p) (defined : f.Defined p)
    (slope : ((call f u).diff name).valueIn b = .real d) :
    ∃ p', (u.diff name).valueIn b = .real p' ∧ f.Smooth p ∧ f.slope p * p' = d := by
  rw [diff_call] at slope
  cases f with
  | exp =>
      simp only [chainRule, mul_def, valueIn_mul, valueIn_call, argument] at slope
      obtain ⟨_, q, ⟨_, ⟨⟩, -, rfl⟩, inner, rfl⟩ := slope
      exact ⟨q, inner, trivial, rfl⟩
  | sin =>
      simp only [chainRule, mul_def, valueIn_mul, valueIn_call, argument] at slope
      obtain ⟨_, q, ⟨_, ⟨⟩, -, rfl⟩, inner, rfl⟩ := slope
      exact ⟨q, inner, trivial, rfl⟩
  | cos =>
      simp only [chainRule, neg_def, mul_def, valueIn_mul, valueIn_call, argument] at slope
      obtain ⟨_, q, ⟨_, _, ⟨⟩, ⟨_, ⟨⟩, -, rfl⟩, rfl⟩, inner, rfl⟩ := slope
      refine ⟨q, inner, trivial, ?_⟩
      simp [Elementary.slope, Elementary.real]
  | log =>
      simp only [chainRule, div_def, valueIn_div, argument] at slope
      obtain ⟨q, _, inner, ⟨⟩, nonzero, rfl⟩ := slope
      refine ⟨q, inner, defined, ?_⟩
      rw [Elementary.slope]
      ring
  | sqrt =>
      simp only [chainRule, div_def, mul_def, valueIn_div, valueIn_mul, valueIn_call,
        argument] at slope
      obtain ⟨q, _, inner, ⟨_, _, ⟨⟩, ⟨_, ⟨⟩, -, rfl⟩, rfl⟩, nonzero, rfl⟩ := slope
      have positive : 0 < p := Real.sqrt_ne_zero'.1 (right_ne_zero_of_mul nonzero)
      refine ⟨q, inner, positive, ?_⟩
      simp only [Elementary.slope, Elementary.real, Int.cast_ofNat]
      ring
  | tan =>
      simp only [chainRule, div_def, valueIn_div, valueIn_squared, valueIn_call, argument] at slope
      obtain ⟨q, _, inner, ⟨_, ⟨_, ⟨⟩, -, rfl⟩, rfl⟩, nonzero, rfl⟩ := slope
      refine ⟨q, inner, defined, ?_⟩
      simp only [Elementary.slope, Elementary.real]
      ring
  | arctan =>
      simp only [chainRule, div_def, add_def, valueIn_div, valueIn_add, valueIn_squared,
        argument] at slope
      obtain ⟨q, _, inner, ⟨_, _, ⟨⟩, ⟨_, ⟨⟩, rfl⟩, rfl⟩, nonzero, rfl⟩ := slope
      refine ⟨q, inner, trivial, ?_⟩
      simp only [Elementary.slope, Int.cast_one]
      ring
  | arcsin =>
      simp only [chainRule, div_def, sub_def, valueIn_div, valueIn_call, valueIn_sub,
        valueIn_squared, argument] at slope
      obtain ⟨q, _, inner, ⟨_, ⟨_, _, ⟨⟩, ⟨_, ⟨⟩, rfl⟩, rfl⟩, -, rfl⟩, nonzero, rfl⟩ := slope
      rw [Int.cast_one] at nonzero ⊢
      refine ⟨q, inner, inside_of_sqrt_ne_zero nonzero, ?_⟩
      simp only [Elementary.slope, Elementary.real]
      ring
  | arccos =>
      simp only [chainRule, div_def, sub_def, neg_def, valueIn_div, valueIn_mul, valueIn_call,
        valueIn_sub, valueIn_squared, argument] at slope
      obtain ⟨_, _, ⟨_, q, ⟨⟩, inner, rfl⟩, ⟨_, ⟨_, _, ⟨⟩, ⟨_, ⟨⟩, rfl⟩, rfl⟩, -, rfl⟩, nonzero,
        rfl⟩ := slope
      rw [Int.cast_one] at nonzero ⊢
      refine ⟨q, inner, inside_of_sqrt_ne_zero nonzero, ?_⟩
      simp only [Elementary.slope, Elementary.real]
      push_cast
      ring

end Values

/-! ### Derivative trees compute slopes -/

section Slopes

variable {a : String → Exact} {name : String}

/-- Where a tree and its derivative tree have values, the tree has a jet with
that value and that slope. -/
theorem jet_of_diff {e : Expr Exact} {x v d : ℝ}
    (value : e.valueIn (Function.update a name (.real x)) = .real v)
    (slope : (e.diff name).valueIn (Function.update a name (.real x)) = .real d) :
    ∃ j, e.jet (rising a name x) = some j ∧ j.value = v ∧ j.slope = d := by
  induction e generalizing v d with
  | var other =>
      by_cases same : other = name
      · subst same
        rw [valueIn_var, Function.update_self] at value
        cases value
        rw [diff, if_pos rfl] at slope
        cases slope
        exact ⟨_, rising_self .., rfl, by simp⟩
      · rw [diff, if_neg same] at slope
        cases slope
        have absent : (var other : Expr Exact).mentions name = false := by simp [mentions, same]
        exact ⟨_, jet_rising_of_not_mentions absent value, rfl, by simp⟩
  | const c =>
      cases slope
      exact ⟨_, jet_const.2 ⟨v, value, rfl⟩, rfl, by simp⟩
  | named c =>
      cases slope
      exact ⟨_, jet_rising_of_not_mentions rfl value, rfl, by simp⟩
  | add u v ihu ihv =>
      obtain ⟨p, q, hu, hv, rfl⟩ := valueIn_add.1 value
      obtain ⟨p', q', hu', hv', rfl⟩ := valueIn_diff_add.1 slope
      obtain ⟨j, hj, rfl, rfl⟩ := ihu hu hu'
      obtain ⟨k, hk, rfl, rfl⟩ := ihv hv hv'
      exact ⟨j + k, jet_add.2 ⟨j, k, hj, hk, rfl⟩, rfl, rfl⟩
  | sub u v ihu ihv =>
      obtain ⟨p, q, hu, hv, rfl⟩ := valueIn_sub.1 value
      obtain ⟨p', q', hu', hv', rfl⟩ := valueIn_diff_sub.1 slope
      obtain ⟨j, hj, rfl, rfl⟩ := ihu hu hu'
      obtain ⟨k, hk, rfl, rfl⟩ := ihv hv hv'
      exact ⟨j - k, jet_sub.2 ⟨j, k, hj, hk, rfl⟩, rfl, rfl⟩
  | mul u v ihu ihv =>
      obtain ⟨p, q, p', q', hu, hv, hu', hv', rfl⟩ := valueIn_diff_mul.1 slope
      cases value.symm.trans (valueIn_mul.2 ⟨p, q, hu, hv, rfl⟩)
      obtain ⟨j, hj, rfl, rfl⟩ := ihu hu hu'
      obtain ⟨k, hk, rfl, rfl⟩ := ihv hv hv'
      exact ⟨j * k, jet_mul.2 ⟨j, k, hj, hk, rfl⟩, rfl, rfl⟩
  | div u v ihu ihv =>
      obtain ⟨p, q, p', q', hu, hv, hu', hv', nonzero, rfl⟩ := valueIn_diff_div slope
      cases value.symm.trans (valueIn_div.2 ⟨p, q, hu, hv, nonzero, rfl⟩)
      obtain ⟨j, hj, rfl, rfl⟩ := ihu hu hu'
      obtain ⟨k, hk, rfl, rfl⟩ := ihv hv hv'
      exact ⟨j / k, jet_div.2 ⟨j, k, hj, hk, nonzero, rfl⟩, rfl, rfl⟩
  | pow u v ihu ihv =>
      obtain ⟨p, q, hu, hv, defined, rfl⟩ := valueIn_pow.1 value
      cases exponent : v.mentions name with
      | false =>
          -- only the base moves, and the next lower power is part of the derivative
          obtain ⟨_, _, p', hu₂, hv₂, hu', lower, rfl⟩ :=
            valueIn_diff_pow_of_exponent exponent slope
          cases hu.symm.trans hu₂
          cases hv.symm.trans hv₂
          obtain ⟨j, hj, rfl, rfl⟩ := ihu hu hu'
          have powers : j.PowerDefined (.still q) := by
            refine ⟨defined, ?_, fun _ => lower⟩
            intro moves
            cases moves
          refine ⟨j.pow (.still q), jet_pow.2 ⟨j, _, hj, ?_, powers, rfl⟩, rfl, ?_⟩
          · exact jet_rising_of_not_mentions exponent hv
          · simp
      | true =>
          cases base : u.mentions name with
          | false =>
              obtain ⟨_, _, q', hu₂, hv₂, hv', positive, rfl⟩ :=
                valueIn_diff_pow_of_base base exponent slope
              cases hu.symm.trans hu₂
              cases hv.symm.trans hv₂
              obtain ⟨k, hk, rfl, rfl⟩ := ihv hv hv'
              have powers : (Jet.still p).PowerDefined k := by
                refine ⟨defined, fun _ => positive, ?_⟩
                intro moves
                cases moves
              refine ⟨(Jet.still p).pow k, jet_pow.2 ⟨_, k, ?_, hk, powers, rfl⟩, rfl, ?_⟩
              · exact jet_rising_of_not_mentions base hu
              · simp
          | true =>
              obtain ⟨_, _, p', q', hu₂, hv₂, hu', hv', positive, rfl⟩ :=
                valueIn_diff_pow base exponent slope
              cases hu.symm.trans hu₂
              cases hv.symm.trans hv₂
              obtain ⟨j, hj, rfl, rfl⟩ := ihu hu hu'
              obtain ⟨k, hk, rfl, rfl⟩ := ihv hv hv'
              have powers : j.PowerDefined k :=
                ⟨defined, fun _ => positive, fun _ => .of_pos positive _⟩
              refine ⟨j.pow k, jet_pow.2 ⟨j, k, hj, hk, powers, rfl⟩, rfl, ?_⟩
              rw [Jet.pow_slope, Real.rpow_sub_one positive.ne']
              ring
  | call f u ih =>
      obtain ⟨p, hu, defined, rfl⟩ := valueIn_call.1 value
      obtain ⟨p', hu', smooth, rfl⟩ := valueIn_diff_call f hu defined slope
      obtain ⟨j, hj, rfl, rfl⟩ := ih hu hu'
      exact ⟨j.call f, jet_call.2 ⟨j, hj, ⟨defined, fun _ => smooth⟩, rfl⟩, rfl, rfl⟩

end Slopes

/-! ### Slopes are derivatives -/

section Functions

variable {a : String → Exact} {name : String} {x : ℝ}

/-- The real function of one variable that a tree denotes, zero where the tree
has no value. -/
noncomputable def function (a : String → Exact) (name : String) (e : Expr Exact) (y : ℝ) : ℝ :=
  match e.valueIn (Function.update a name (.real y)) with
  | .real z => z
  | .undefined => 0

theorem function_eq {e : Expr Exact} {y z : ℝ}
    (value : e.valueIn (Function.update a name (.real y)) = .real z) :
    e.function a name y = z := by
  rw [function, value]

/-- A tree has values around a point, which is what being differentiable
there presupposes. -/
def DefinedNear (a : String → Exact) (name : String) (e : Expr Exact) (x : ℝ) : Prop :=
  ∀ᶠ y in 𝓝 x, ∃ z, e.valueIn (Function.update a name (.real y)) = .real z

/-- A tree whose variable does not occur denotes a constant function. -/
theorem function_eq_of_not_mentions {e : Expr Exact}
    (absent : e.mentions name = false) (y z : ℝ) :
    e.function a name y = e.function a name z := by
  rw [function, function, valueIn_update_of_not_mentions absent,
    valueIn_update_of_not_mentions absent]

theorem function_eq_of_jet {e : Expr Exact} {j : Jet}
    (h : e.jet (rising a name x) = some j) :
    e.function a name x = j.value := function_eq (valueIn_of_jet_rising h)

/-- Where an elementary function is smooth, its slope is its derivative.  This
is where the analysis of the library enters. -/
theorem hasDerivAt_elementary {f : Elementary} {p : ℝ} (smooth : f.Smooth p) :
    HasDerivAt f.real (f.slope p) p := by
  cases f with
  | sin => exact Real.hasDerivAt_sin p
  | cos => exact Real.hasDerivAt_cos p
  | tan => exact Real.hasDerivAt_tan smooth
  | arcsin => exact Real.hasDerivAt_arcsin smooth.1.ne' smooth.2.ne
  | arccos => exact Real.hasDerivAt_arccos smooth.1.ne' smooth.2.ne
  | arctan => exact Real.hasDerivAt_arctan p
  | exp => exact Real.hasDerivAt_exp p
  | log =>
      have positive : 0 < p := smooth
      exact (Real.hasDerivAt_log positive.ne').congr_deriv (by rw [Elementary.slope, one_div])
  | sqrt =>
      have positive : 0 < p := smooth
      exact Real.hasDerivAt_sqrt positive.ne'

/-- A tree that stands still denotes a function without slope. -/
theorem hasDerivAt_of_still {e : Expr Exact} {j : Jet}
    (h : e.jet (rising a name x) = some j) (stands : j.moves = false) :
    HasDerivAt (e.function a name) j.slope x := by
  have absent : e.mentions name = false := by rw [← moves_of_jet h, stands]
  have constant : e.function a name = fun _ => e.function a name x := by
    funext y
    exact function_eq_of_not_mentions absent y x
  rw [constant, j.slope_eq_zero stands]
  exact hasDerivAt_const x _

/-- Around a point where a node has values its operands have values, and the
function it denotes is the operation applied to theirs. -/
theorem function_of_operands {e u v : Expr Exact} {operation : ℝ → ℝ → ℝ}
    (inversion : ∀ {b : String → Exact} {z}, e.valueIn b = .real z →
      ∃ p q, u.valueIn b = .real p ∧ v.valueIn b = .real q ∧ operation p q = z)
    (near : e.DefinedNear a name x) :
    u.DefinedNear a name x ∧ v.DefinedNear a name x ∧
      e.function a name =ᶠ[𝓝 x]
        fun y => operation (u.function a name y) (v.function a name y) := by
  refine ⟨?_, ?_, ?_⟩
  · filter_upwards [near] with y ⟨z, hz⟩
    obtain ⟨p, q, hp, -, -⟩ := inversion hz
    exact ⟨p, hp⟩
  · filter_upwards [near] with y ⟨z, hz⟩
    obtain ⟨p, q, -, hq, -⟩ := inversion hz
    exact ⟨q, hq⟩
  · filter_upwards [near] with y ⟨z, hz⟩
    obtain ⟨p, q, hp, hq, result⟩ := inversion hz
    rw [function_eq hz, function_eq hp, function_eq hq, result]

/-- The power of two functions that the jets describe, one of them moving.
The cases are those of the derivative of a real power. -/
theorem hasDerivAt_rpow_of_jets {g h : ℝ → ℝ} {j k : Jet}
    (defined : j.PowerDefined k) (moves : (j.moves || k.moves) = true)
    (hg : HasDerivAt g j.slope x) (hh : HasDerivAt h k.slope x)
    (base : g x = j.value) (exponent : h x = k.value)
    (constant : k.moves = false → ∀ y, h y = k.value) :
    HasDerivAt (fun y => g y ^ h y) (j.pow k).slope x := by
  cases exponentMoves : k.moves with
  | true =>
      have positive : 0 < g x := by
        rw [base]
        exact defined.2.1 exponentMoves
      refine (hg.rpow hh positive).congr_deriv ?_
      rw [base, exponent, Jet.pow_slope]
      ring
  | false =>
      have baseMoves : j.moves = true := by rwa [exponentMoves, Bool.or_false] at moves
      -- at the base zero the next lower power exists from the exponent one on
      have differentiable : g x ≠ 0 ∨ 1 ≤ k.value := by
        rw [base]
        by_cases zero : j.value = 0
        · have lower := defined.2.2 baseMoves
          rw [zero, PowerDefined.zero_left_iff] at lower
          exact .inr (by linarith)
        · exact .inl zero
      simp only [constant exponentMoves]
      refine (hg.rpow_const differentiable).congr_deriv ?_
      rw [base, Jet.pow_slope, k.slope_eq_zero exponentMoves]
      ring

/-- The slope of a jet is the derivative of the function that the tree
denotes.  The induction is on the tree; around the point each operand has
values because the node has. -/
theorem hasDerivAt_of_jet {e : Expr Exact} {j : Jet}
    (h : e.jet (rising a name x) = some j) (near : e.DefinedNear a name x) :
    HasDerivAt (e.function a name) j.slope x := by
  induction e generalizing j with
  | var other =>
      by_cases same : other = name
      · subst same
        rw [jet_var, rising_self, Option.some.injEq] at h
        subst h
        have identity : (var other).function a other = fun y => y := by
          funext y
          exact function_eq (by rw [valueIn_var, Function.update_self])
        rw [identity]
        exact hasDerivAt_id x
      · apply hasDerivAt_of_still h
        rw [moves_of_jet h]
        simp [mentions, same]
  | const c => exact hasDerivAt_of_still h (moves_of_jet h)
  | named c => exact hasDerivAt_of_still h (moves_of_jet h)
  | add u v ihu ihv =>
      obtain ⟨j, k, hj, hk, rfl⟩ := jet_add.1 h
      obtain ⟨nearU, nearV, same⟩ := function_of_operands valueIn_add.1 near
      exact ((ihu hj nearU).add (ihv hk nearV)).congr_of_eventuallyEq same
  | sub u v ihu ihv =>
      obtain ⟨j, k, hj, hk, rfl⟩ := jet_sub.1 h
      obtain ⟨nearU, nearV, same⟩ := function_of_operands valueIn_sub.1 near
      exact ((ihu hj nearU).sub (ihv hk nearV)).congr_of_eventuallyEq same
  | mul u v ihu ihv =>
      obtain ⟨j, k, hj, hk, rfl⟩ := jet_mul.1 h
      obtain ⟨nearU, nearV, same⟩ := function_of_operands valueIn_mul.1 near
      refine (((ihu hj nearU).mul (ihv hk nearV)).congr_of_eventuallyEq same).congr_deriv ?_
      rw [function_eq_of_jet hj, function_eq_of_jet hk, Jet.mul_slope]
  | div u v ihu ihv =>
      obtain ⟨j, k, hj, hk, nonzero, rfl⟩ := jet_div.1 h
      have inversion : ∀ {b : String → Exact} {z}, (div u v).valueIn b = .real z →
          ∃ p q, u.valueIn b = .real p ∧ v.valueIn b = .real q ∧ p / q = z := by
        intro b z hz
        obtain ⟨p, q, hp, hq, -, result⟩ := valueIn_div.1 hz
        exact ⟨p, q, hp, hq, result⟩
      obtain ⟨nearU, nearV, same⟩ := function_of_operands inversion near
      rw [← function_eq_of_jet hk] at nonzero
      refine (((ihu hj nearU).div (ihv hk nearV) nonzero).congr_of_eventuallyEq same).congr_deriv ?_
      rw [function_eq_of_jet hj, function_eq_of_jet hk, Jet.div_slope]
      ring
  | pow u v ihu ihv =>
      obtain ⟨j, k, hj, hk, defined, rfl⟩ := jet_pow.1 h
      have inversion : ∀ {b : String → Exact} {z}, (pow u v).valueIn b = .real z →
          ∃ p q, u.valueIn b = .real p ∧ v.valueIn b = .real q ∧ p ^ q = z := by
        intro b z hz
        obtain ⟨p, q, hp, hq, -, result⟩ := valueIn_pow.1 hz
        exact ⟨p, q, hp, hq, result⟩
      obtain ⟨nearU, nearV, same⟩ := function_of_operands inversion near
      cases moves : j.moves || k.moves with
      | false => exact hasDerivAt_of_still h moves
      | true =>
          have constant : k.moves = false → ∀ y, v.function a name y = k.value := by
            intro stands y
            have absent : v.mentions name = false := by rw [← moves_of_jet hk, stands]
            rw [function_eq_of_not_mentions absent y x, function_eq_of_jet hk]
          exact (hasDerivAt_rpow_of_jets defined moves (ihu hj nearU) (ihv hk nearV)
            (function_eq_of_jet hj) (function_eq_of_jet hk) constant).congr_of_eventuallyEq same
  | call f u ih =>
      obtain ⟨j, hj, defined, rfl⟩ := jet_call.1 h
      have inversion : ∀ {b : String → Exact} {z}, (call f u).valueIn b = .real z →
          ∃ p q, u.valueIn b = .real p ∧ u.valueIn b = .real q ∧ f.real p = z := by
        intro b z hz
        obtain ⟨p, hp, -, result⟩ := valueIn_call.1 hz
        exact ⟨p, p, hp, hp, result⟩
      obtain ⟨nearU, -, same⟩ := function_of_operands inversion near
      cases moves : j.moves with
      | false => exact hasDerivAt_of_still h moves
      | true =>
          have outer := hasDerivAt_elementary (defined.2 moves)
          rw [← function_eq_of_jet hj] at outer
          refine ((outer.comp x (ih hj nearU)).congr_of_eventuallyEq same).congr_deriv ?_
          rw [function_eq_of_jet hj, Jet.call_slope]

end Functions

/-- The symbolic derivative is the derivative.  Where a tree has values around
a point and its derivative tree has a value at the point, the function that
the tree denotes is differentiable there with that value as its derivative,
and the simplified derivative tree has the same value.  Values at the point
alone would not do, as a derivative speaks of what lies around it. -/
theorem derivative_correct {e : Expr Exact} {name : String} {a : String → Exact} {f : ℝ → ℝ}
    {x d : ℝ}
    (near : ∀ᶠ y in 𝓝 x, e.valueIn (Function.update a name (.real y)) = .real (f y))
    (slope : (e.diff name).valueIn (Function.update a name (.real x)) = .real d) :
    HasDerivAt f d x ∧
      (e.derivative name).valueIn (Function.update a name (.real x)) = .real d := by
  obtain ⟨j, hj, -, rfl⟩ := jet_of_diff near.self_of_nhds slope
  have defined : e.DefinedNear a name x := near.mono fun y hy => ⟨f y, hy⟩
  have same : f =ᶠ[𝓝 x] e.function a name := near.mono fun y hy => (function_eq hy).symm
  exact ⟨(hasDerivAt_of_jet hj defined).congr_of_eventuallyEq same,
    (refines_simplify (e.diff name)).valueIn slope⟩

/-- The function `x*log(x)` has the derivative one at the point one. -/
theorem derivative_correct_of_entropy :
    let e : Expr Exact := mul (var "x") (call .log (var "x"))
    let a : String → Exact := fun _ => .undefined
    (∀ᶠ y in 𝓝 (1 : ℝ), e.valueIn (Function.update a "x" (.real y)) = .real (y * Real.log y)) ∧
      (e.diff "x").valueIn (Function.update a "x" (.real 1)) = .real 1 ∧
      HasDerivAt (fun y => y * Real.log y) 1 1 ∧
      (e.derivative "x").valueIn (Function.update a "x" (.real 1)) = .real 1 := by
  intro e a
  have near : ∀ᶠ y in 𝓝 (1 : ℝ),
      e.valueIn (Function.update a "x" (.real y)) = .real (y * Real.log y) := by
    filter_upwards [lt_mem_nhds one_pos] with y positive
    exact valueIn_mul.2 ⟨y, Real.log y, rfl, valueIn_call.2 ⟨y, rfl, positive, rfl⟩, rfl⟩
  have slope : (e.diff "x").valueIn (Function.update a "x" (.real 1)) = .real 1 := by
    refine valueIn_add.2 ⟨0, 1, valueIn_mul.2 ⟨1, 0, ?_, ?_, ?_⟩,
      valueIn_mul.2 ⟨1, 1, rfl, valueIn_div.2 ⟨1, 1, ?_, rfl, ?_, ?_⟩, ?_⟩, ?_⟩
    · simp [diff]
    · exact valueIn_call.2 ⟨1, rfl, one_pos, Real.log_one⟩
    · norm_num
    · simp [diff]
    all_goals norm_num
  exact ⟨near, slope, derivative_correct near slope⟩

end Expr

end Fluxion
