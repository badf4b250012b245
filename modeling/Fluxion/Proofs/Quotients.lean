import Fluxion.Proofs.Outcome
import Fluxion.Proofs.Primitives

/-!
# Integrals of quotients and of products with the logarithm

The rules for quotients look for a denominator that they know: a linear function, a monomial, a
power, `1 + x²`, `√(1 - x²)` and other roots, or one whose derivative stands in the numerator.
Every quotient that one of them integrates differentiates back (`integrateQuotient_antiderives`),
and so does every product of a monomial with the logarithm
(`integrateTimesLogarithm?_antiderives`).
-/

namespace Fluxion

namespace Expr

section Rules

variable {b : String → Exact} {name : String} {x : ℝ} {e u v F G f g : Expr Exact} {y d s : ℝ}

/-! ### Monomials -/

/-- A whole power of the variable has a value everywhere but, for negative
exponents, at zero. -/
theorem valueIn_power (here : b name = .real x) {n : ℤ} {p : ℝ} :
    (pow (var name) (int n)).valueIn b = .real p ↔ (x ≠ 0 ∨ 0 ≤ n) ∧ x ^ n = p := by
  rw [valueIn_pow]
  constructor
  · rintro ⟨_, _, hx, hn, defined, rfl⟩
    cases here.symm.trans hx
    cases hn
    rw [Real.rpow_intCast]
    refine ⟨?_, rfl⟩
    rcases defined with positive | ⟨-, nonneg⟩ | ⟨negative, -⟩
    · exact .inl positive.ne'
    · exact .inr (by exact_mod_cast nonneg)
    · exact .inl negative.ne
  · rintro ⟨defined, rfl⟩
    refine ⟨x, n, here, rfl, ?_, Real.rpow_intCast x n⟩
    rcases defined with nonzero | nonneg
    · exact .of_intCast nonzero n
    · rcases eq_or_ne x 0 with rfl | nonzero
      · exact PowerDefined.zero_left_iff.2 (by exact_mod_cast nonneg)
      · exact .of_intCast nonzero n

/-- A power that divides has a reciprocal power: at zero it has the degree zero. -/
theorem ne_zero_or_of_zpow_ne_zero {n : ℤ} (nonzero : x ^ n ≠ 0) : x ≠ 0 ∨ 0 ≤ -n := by
  by_cases zero : x = 0
  · have degree : n = 0 := by
      by_contra other
      exact nonzero (by rw [zero, zero_zpow n other])
    exact .inr (by rw [degree, neg_zero])
  · exact .inl zero

/-- What is recognised as a monomial is one. -/
theorem valueIn_of_monomial? (here : b name = .real x) {c : Exact} {n : ℤ} {p : ℝ}
    (shape : u.monomial? name = some (c, n)) (value : u.valueIn b = .real p) :
    ∃ k, c = .real k ∧ (x ≠ 0 ∨ 0 ≤ n) ∧ k * x ^ n = p := by
  fun_induction monomial? name u generalizing c n p with
  | case1 =>
      cases shape
      cases here.symm.trans value
      exact ⟨1, by rw [Exact.ofInt_eq, Int.cast_one], .inr one_pos.le, by simp⟩
  | case3 other _ degree whole small =>
      cases shape
      cases Exact.whole?_eq_some.1 whole
      rw [small.1] at value
      obtain ⟨defined, rfl⟩ := (valueIn_power here).1 value
      exact ⟨1, by rw [Exact.ofInt_eq, Int.cast_one], defined, one_mul _⟩
  | case6 r u ih =>
      rw [Option.map_eq_some_iff] at shape
      obtain ⟨⟨k, n⟩, inner, shape⟩ := shape
      cases shape
      obtain ⟨r, q, rfl, hq, rfl⟩ := valueIn_mul.1 value
      obtain ⟨k, rfl, defined, rfl⟩ := ih inner hq
      exact ⟨r * k, rfl, defined, mul_assoc r k _⟩
  | case7 u r notConst ih =>
      rw [Option.map_eq_some_iff] at shape
      obtain ⟨⟨k, n⟩, inner, shape⟩ := shape
      cases shape
      obtain ⟨q, r, hq, rfl, rfl⟩ := valueIn_mul.1 value
      obtain ⟨k, rfl, defined, rfl⟩ := ih inner hq
      exact ⟨r * k, rfl, defined, by ring⟩
  | case2 | case4 | case5 | case8 => cases shape

/-- A monomial has the value that its coefficient and degree say. -/
theorem valueIn_monomial (here : b name = .real x) {k : ℝ} {n : ℤ} {p : ℝ} :
    (monomial name (.real k) n).valueIn b = .real p ↔ (x ≠ 0 ∨ 0 ≤ n) ∧ k * x ^ n = p := by
  have power : ∀ {p}, (if n = 1 then var name else pow (var name) (int n)).valueIn b = .real p ↔
      (x ≠ 0 ∨ 0 ≤ n) ∧ x ^ n = p := by
    intro p
    split
    · next one =>
        subst one
        rw [valueIn_var, here]
        simp
    · exact valueIn_power here
  unfold monomial
  dsimp only
  split
  · next zero =>
      subst zero
      simp
  · split
    · next one =>
        cases Exact.isOne_iff.1 one
        rw [power, Int.cast_one, one_mul]
    · rw [mul_def, valueIn_mul]
      constructor
      · rintro ⟨_, q, ⟨⟩, hq, rfl⟩
        obtain ⟨defined, rfl⟩ := power.1 hq
        exact ⟨defined, rfl⟩
      · rintro ⟨defined, rfl⟩
        exact ⟨k, _, rfl, power.2 ⟨defined, rfl⟩, rfl⟩

/-- The derivative of a monomial. -/
theorem valueIn_diff_monomial (here : b name = .real x) {k : ℝ} {n : ℤ}
    (slope : ((monomial name (.real k) n).diff name).valueIn b = .real d) :
    d = k * (n * x ^ (n - 1)) := by
  have power : ∀ {d}, ((if n = 1 then var name else pow (var name) (int n) : Expr Exact).diff
      name).valueIn b = .real d → d = n * x ^ (n - 1) := by
    intro d slope
    split at slope
    · next one =>
        rw [diff, if_pos rfl] at slope
        cases slope
        simp [one]
    · obtain ⟨_, _, _, hx, ⟨⟩, hx', -, rfl⟩ := valueIn_diff_pow_of_exponent rfl slope
      rw [diff, if_pos rfl] at hx'
      cases hx'
      cases here.symm.trans hx
      rw [← Int.cast_one, ← Int.cast_sub, Real.rpow_intCast, Int.cast_one, mul_one]
  unfold monomial at slope
  dsimp only at slope
  split at slope
  · next zero =>
      cases slope
      simp [zero]
  · split at slope
    · next one =>
        cases Exact.isOne_iff.1 one
        rw [power slope, Int.cast_one, one_mul]
    · obtain ⟨_, _, _, d', ⟨⟩, -, ⟨⟩, slope', rfl⟩ := valueIn_diff_mul.1 slope
      rw [power slope', Int.cast_zero, zero_mul, zero_add]

/-! ### Products with the logarithm -/

/-- The derivative of the logarithm exists off zero only. -/
theorem valueIn_diff_log_var (here : b name = .real x)
    (slope : ((call .log (var name)).diff name).valueIn b = .real d) :
    x ≠ 0 ∧ d = 1 / x := by
  obtain ⟨_, _, hx, hx', nonzero, rfl⟩ := valueIn_diff_log.1 slope
  cases here.symm.trans hx
  rw [diff, if_pos rfl] at hx'
  cases hx'
  exact ⟨nonzero, by rw [Int.cast_one]⟩

/-- Where the derivative of a function of the variable has a value, the
function is smooth and that value is its slope. -/
theorem valueIn_diff_call_var (f : Elementary) (here : b name = .real x) (defined : f.Defined x)
    (slope : ((call f (var name)).diff name).valueIn b = .real d) :
    f.Smooth x ∧ d = f.slope x := by
  have hx : (var name).valueIn b = .real x := here
  obtain ⟨_, hx', smooth, rfl⟩ := valueIn_diff_call f hx defined slope
  rw [diff, if_pos rfl] at hx'
  cases hx'
  exact ⟨smooth, by rw [Int.cast_one, mul_one]⟩

/-- A monomial times the logarithm is integrated rightly, the degree
minus one included. -/
theorem integrateTimesLogarithm?_antiderives (here : b name = .real x)
    (found : integrateTimesLogarithm? name u v = some F) : Antiderives b name F (mul u v) := by
  intro y d value slope
  obtain ⟨p, l, hp, hl, rfl⟩ := valueIn_mul.1 value
  unfold integrateTimesLogarithm? at found
  split at found
  · next other =>
      split at found
      · cases found
      · next same =>
          rw [ne_eq, not_not] at same
          subst same
          rw [Option.map_eq_some_iff] at found
          obtain ⟨⟨c, n⟩, shape, found⟩ := found
          obtain ⟨k, rfl, -, rfl⟩ := valueIn_of_monomial? here shape hp
          obtain ⟨_, hx, positive, rfl⟩ := valueIn_call.1 hl
          cases here.symm.trans hx
          dsimp only at found
          split at found
          · next minus =>
              cases found
              obtain ⟨_, _, _, _, -, ⟨⟩, product, ⟨⟩, -, rfl⟩ := valueIn_diff_div slope
              obtain ⟨_, _, _, _, ⟨⟩, -, ⟨⟩, square, rfl⟩ := valueIn_diff_mul.1 product
              obtain ⟨_, _, hl₂, hl', rfl⟩ := valueIn_diff_squared square
              cases hl.symm.trans hl₂
              obtain ⟨nonzero, rfl⟩ := valueIn_diff_log_var here hl'
              rw [minus, zpow_neg_one]
              push_cast
              ring
          · next other =>
              cases found
              obtain ⟨_, _, _, _, power, bracket, power', bracket', rfl⟩ :=
                valueIn_diff_mul.1 slope
              obtain ⟨-, rfl⟩ := (valueIn_monomial here).1 power
              cases valueIn_diff_monomial here power'
              obtain ⟨_, _, quotient, reciprocal, rfl⟩ := valueIn_sub.1 bracket
              obtain ⟨_, _, hl₂, ⟨⟩, nonzero, rfl⟩ := valueIn_div.1 quotient
              obtain ⟨_, _, ⟨⟩, ⟨⟩, -, rfl⟩ := valueIn_div.1 reciprocal
              obtain ⟨_, _, quotient', reciprocal', rfl⟩ := valueIn_diff_sub.1 bracket'
              obtain ⟨_, _, _, _, -, ⟨⟩, hl', ⟨⟩, -, rfl⟩ := valueIn_diff_div quotient'
              obtain ⟨_, _, _, _, ⟨⟩, ⟨⟩, ⟨⟩, ⟨⟩, -, rfl⟩ := valueIn_diff_div reciprocal'
              cases hl.symm.trans hl₂
              obtain ⟨base, rfl⟩ := valueIn_diff_log_var here hl'
              rw [add_sub_cancel_right, zpow_add_one₀ base]
              push_cast at nonzero ⊢
              field_simp
              ring
  · cases found

/-! ### Quotients -/

/-- A constant factor stays a factor of the derivative. -/
theorem valueIn_diff_const_mul {k : ℝ} (here : b name = .real x)
    (absent : u.mentions name = false) (value : u.valueIn b = .real k)
    (slope : ((mul u G).diff name).valueIn b = .real d) :
    ∃ d', (G.diff name).valueIn b = .real d' ∧ d = k * d' := by
  obtain ⟨_, p, _, p', hk, -, hk', hp', rfl⟩ := valueIn_diff_mul.1 slope
  cases value.symm.trans hk
  refine ⟨p', hp', ?_⟩
  rw [diff_eq_zero_of_not_mentions here absent value hk', zero_mul, zero_add]

section Reciprocals

variable {P w n : Expr Exact} (here : b name = .real x) (absent : u.mentions name = false)

include here absent

theorem quotient_linear {c : Exact} (linear : v.slope? name = some c) :
    Antiderives b name (u * (call .log v).dividedBy c) (div u v) := by
  intro y d value slope
  obtain ⟨k, q, hk, hq, nonzero, rfl⟩ := valueIn_div.1 value
  obtain ⟨_, logarithm, rfl⟩ := valueIn_diff_const_mul here absent hk slope
  obtain ⟨_, hq₂, -, rfl⟩ := valueIn_diff_log_dividedBy linear logarithm
  cases hq.symm.trans hq₂
  rw [mul_one_div]

/-- Over a monomial the integral is that of a power with negative exponent. -/
theorem quotient_monomial {c : Exact} {n : ℤ} (shape : v.monomial? name = some (c, n))
    (power : integratePower name (var name) (int (-n)) = .ok P) :
    Antiderives b name (u / const c * P) (div u v) := by
  intro y d value slope
  obtain ⟨k, q, hk, hq, nonzero, rfl⟩ := valueIn_div.1 value
  obtain ⟨c, rfl, defined, rfl⟩ := valueIn_of_monomial? here shape hq
  obtain ⟨coefficient, base⟩ := mul_ne_zero_iff.1 nonzero
  have constant : (div u (const (.real c))).mentions name = false := by
    simpa [mentions] using absent
  have factor : (div u (const (.real c))).valueIn b = .real (k / c) :=
    valueIn_div.2 ⟨k, c, hk, rfl, coefficient, rfl⟩
  have reciprocal : (pow (var name) (int (-n))).valueIn b = .real (x ^ (-n)) := by
    exact (valueIn_power here).2 ⟨ne_zero_or_of_zpow_ne_zero base, rfl⟩
  obtain ⟨_, slope', rfl⟩ := valueIn_diff_const_mul here constant factor slope
  rw [integratePower_antiderives here power reciprocal slope', zpow_neg]
  field_simp

/-- Over a power the integral is that of the power with the opposite exponent. -/
theorem quotient_power (power : integratePower name w (int (-1) * n).simplify = .ok P) :
    Antiderives b name (u * P) (div u (pow w n)) := by
  intro y d value slope
  obtain ⟨k, q, hk, hq, nonzero, rfl⟩ := valueIn_div.1 value
  obtain ⟨_, slope', rfl⟩ := valueIn_diff_const_mul here absent hk slope
  obtain ⟨p, r, hp, hr, defined, rfl⟩ := valueIn_pow.1 hq
  have zeroth := PowerDefined.zero_right p
  have negated : (int (-1) * n).simplify.valueIn b = .real (0 - r) := by
    refine (refines_simplify _).valueIn (valueIn_mul.2 ⟨-1, r, ?_, hr, by ring⟩)
    rw [valueIn_int, Int.cast_neg, Int.cast_one]
  have reciprocal : (pow w (int (-1) * n).simplify).valueIn b = .real (p ^ (0 - r)) :=
    valueIn_pow.2 ⟨p, 0 - r, hp, negated, zeroth.sub defined nonzero, rfl⟩
  rw [integratePower_antiderives here power reciprocal slope', zeroth.rpow_sub defined nonzero,
    Real.rpow_zero, mul_one_div]

/-- Over one plus a square the integral is an arctangent, in either
order of the terms. -/
theorem quotient_one_add_square
    (shape : (int 1 + squared (var name) == v || squared (var name) + int 1 == v) = true) :
    Antiderives b name (u * call .arctan (var name)) (div u v) := by
  intro y d value slope
  obtain ⟨k, q, hk, hq, nonzero, rfl⟩ := valueIn_div.1 value
  obtain ⟨_, slope', rfl⟩ := valueIn_diff_const_mul here absent hk slope
  obtain ⟨-, rfl⟩ := valueIn_diff_call_var .arctan here trivial slope'
  have square : (squared (var name)).valueIn b = .real (x ^ 2) :=
    valueIn_squared.2 ⟨x, here, rfl⟩
  have denominator : v.valueIn b = .real (1 + x ^ 2) := by
    rcases Bool.or_eq_true_iff.1 shape with same | same
    · rw [← eq_of_beq same]
      exact valueIn_add.2 ⟨1, x ^ 2, by simp, square, rfl⟩
    · rw [← eq_of_beq same]
      exact valueIn_add.2 ⟨x ^ 2, 1, square, by simp, add_comm _ _⟩
  cases hq.symm.trans denominator
  rw [Elementary.slope, mul_one_div]

/-- Over the root of one minus a square the integral is an arcsine. -/
theorem quotient_root_one_sub_square :
    Antiderives b name (u * call .arcsin (var name))
      (div u (call .sqrt (int 1 - squared (var name)))) := by
  intro y d value slope
  obtain ⟨k, q, hk, hq, nonzero, rfl⟩ := valueIn_div.1 value
  obtain ⟨_, slope', rfl⟩ := valueIn_diff_const_mul here absent hk slope
  obtain ⟨_, radicand, nonneg, rfl⟩ := valueIn_call.1 hq
  obtain ⟨_, _, ⟨⟩, square, rfl⟩ := valueIn_sub.1 radicand
  obtain ⟨_, hx, rfl⟩ := valueIn_squared.1 square
  cases here.symm.trans hx
  have inside : -1 ≤ x ∧ x ≤ 1 := by
    rw [Elementary.Defined, Int.cast_one] at nonneg
    constructor <;> nlinarith
  obtain ⟨-, rfl⟩ := valueIn_diff_call_var .arcsin here inside slope'
  rw [Elementary.slope, Elementary.real, Int.cast_one, mul_one_div]

/-- Over a root the integral is that of the power minus one half. -/
theorem quotient_root (power : integratePower name w (const (-Scalar.half)) = .ok P) :
    Antiderives b name (u * P) (div u (call .sqrt w)) := by
  intro y d value slope
  obtain ⟨k, q, hk, hq, nonzero, rfl⟩ := valueIn_div.1 value
  obtain ⟨_, slope', rfl⟩ := valueIn_diff_const_mul here absent hk slope
  obtain ⟨p, hp, -, rfl⟩ := valueIn_call.1 hq
  have positive : 0 < p := Real.sqrt_ne_zero'.1 nonzero
  have reciprocal : (pow w (const (-Scalar.half))).valueIn b = .real (p ^ (-(1 / 2) : ℝ)) := by
    refine valueIn_pow.2 ⟨p, -(1 / 2), hp, ?_, .of_pos positive _, rfl⟩
    rw [valueIn_const, Exact.half_eq, Exact.neg_real]
  rw [integratePower_antiderives here power reciprocal slope', Real.rpow_neg positive.le,
    ← Real.sqrt_eq_rpow, Elementary.real, ← div_eq_mul_inv]

/-- Quotients with a constant numerator are integrated rightly, one case
for each rule. -/
theorem integrateReciprocal?_antiderives
    (found : integrateReciprocal? name u v = some (.ok F)) :
    Antiderives b name F (div u v) := by
  unfold integrateReciprocal? at found
  dsimp only at found
  split at found
  · next a linear =>
      cases found
      exact quotient_linear here absent linear
  · split at found
    · next c n shape =>
        rw [Option.some.injEq] at found
        obtain ⟨P, power, rfl⟩ := map_eq_ok found
        exact quotient_monomial here absent shape power
    · split at found
      · split at found
        · rw [Option.some.injEq] at found
          obtain ⟨P, power, rfl⟩ := map_eq_ok found
          exact quotient_power here absent power
        · -- a power is none of the other denominators
          split at found
          · next same =>
              rcases Bool.or_eq_true_iff.1 same with same | same <;> cases eq_of_beq same
          · split at found
            · next same => cases eq_of_beq same
            · cases found
      · split at found
        · next shape =>
            cases found
            exact quotient_one_add_square here absent shape
        · split at found
          · next same =>
              cases eq_of_beq same
              cases found
              exact quotient_root_one_sub_square here absent
          · split at found
            · rw [Option.some.injEq] at found
              obtain ⟨P, power, rfl⟩ := map_eq_ok found
              exact quotient_root here absent power
            · cases found

end Reciprocals

/-- A logarithm over a monomial is a monomial times a logarithm. -/
theorem quotient_logarithm (here : b name = .real x) {c : Exact} {n : ℤ}
    (shape : v.monomial? name = some (c, n))
    (found : integrateTimesLogarithm? name (monomial name (Scalar.ofInt 1 / c) (-n)) u = some F) :
    Antiderives b name F (div u v) := by
  intro y d value slope
  obtain ⟨p, q, hp, hq, nonzero, rfl⟩ := valueIn_div.1 value
  obtain ⟨k, rfl, -, rfl⟩ := valueIn_of_monomial? here shape hq
  obtain ⟨coefficient, base⟩ := mul_ne_zero_iff.1 nonzero
  have inverse : (Scalar.ofInt 1 / Exact.real k : Exact) = .real (1 / k) :=
    Exact.div_eq_real.2 ⟨1, k, by rw [Exact.ofInt_eq, Int.cast_one], rfl, coefficient, rfl⟩
  rw [inverse] at found
  have reciprocal : (monomial name (.real (1 / k)) (-n)).valueIn b = .real (1 / k * x ^ (-n)) :=
    (valueIn_monomial here).2 ⟨ne_zero_or_of_zpow_ne_zero base, rfl⟩
  have product := valueIn_mul.2 ⟨_, p, reciprocal, hp, rfl⟩
  rw [integrateTimesLogarithm?_antiderives here found product slope, zpow_neg]
  field_simp

/-- A quotient whose numerator is the derivative of the denominator, up to
constant factors. -/
theorem quotient_derivative
    (same : (u.simplify.splitCoefficient.2 == (v.derivative name).splitCoefficient.2) = true)
    (nonzero : Scalar.isZero (v.derivative name).splitCoefficient.1 = false) :
    Antiderives b name ((const u.simplify.splitCoefficient.1 * call .log v).dividedBy
      (v.derivative name).splitCoefficient.1) (div u v) := by
  intro y d value slope
  obtain ⟨p, q, hp, hq, denominator, rfl⟩ := valueIn_div.1 value
  have numerator := ((refines_simplify u).trans (refines_splitCoefficient _)).valueIn hp
  obtain ⟨k, r, hk, hr, rfl⟩ := valueIn_mul.1 numerator
  have derivative : Refines (v.diff name)
      (mul (const (v.derivative name).splitCoefficient.1)
        (v.derivative name).splitCoefficient.2) :=
    (refines_simplify (v.diff name)).trans (refines_splitCoefficient _)
  rw [eq_of_beq same] at hr
  rw [valueIn_const] at hk
  rw [hk] at slope
  cases coefficient : (v.derivative name).splitCoefficient.1 with
  | undefined =>
      rw [coefficient] at slope
      obtain ⟨_, _, _, _, -, constant, -⟩ := valueIn_diff_div slope
      cases constant
  | real l =>
      rw [coefficient] at slope nonzero
      have divisor := Exact.isZero_real_eq_false.1 nonzero
      obtain ⟨_, slope', rfl⟩ := valueIn_diff_dividedBy divisor slope
      obtain ⟨_, _, _, _, ⟨⟩, -, ⟨⟩, logarithm, rfl⟩ := valueIn_diff_mul.1 slope'
      obtain ⟨_, q', hq₂, hq', -, rfl⟩ := valueIn_diff_log.1 logarithm
      cases hq.symm.trans hq₂
      -- the slope of the denominator is its coefficient times the common factor
      rw [coefficient] at derivative
      obtain ⟨_, _, ⟨⟩, hr₂, rfl⟩ := valueIn_mul.1 (derivative.valueIn hq')
      cases hr.symm.trans hr₂
      rw [Int.cast_zero]
      field_simp
      ring

/-- Quotients are integrated rightly. -/
theorem integrateQuotient_antiderives (here : b name = .real x)
    (ok : integrateQuotient name u v = .ok F) : Antiderives b name F (div u v) := by
  unfold integrateQuotient at ok
  split at ok
  · next result reciprocal =>
      subst ok
      split at reciprocal
      · next absent =>
          rw [Bool.not_eq_true'] at absent
          exact integrateReciprocal?_antiderives here absent reciprocal
      · cases reciprocal
  · dsimp only at ok
    split at ok
    · next result logarithmic =>
        cases ok
        obtain ⟨⟨c, n⟩, shape, found⟩ := Option.bind_eq_some_iff.1 logarithmic
        exact quotient_logarithm here shape found
    · split at ok
      · next shape =>
          cases ok
          rw [Bool.and_eq_true, Bool.not_eq_true'] at shape
          exact quotient_derivative shape.1 shape.2
      · cases ok

end Rules

end Expr

end Fluxion
