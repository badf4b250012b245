import Fluxion.Expr.Antiderivative
import Fluxion.Proofs.Differentiation

/-!
# Integrals of powers and of functions

Integration knows the integrals of powers, of exponentials and of the elementary functions by
formula.  The argument may be any function of which it takes the derivative for constant, and this
is all that the formulas rely on: the slope read off an argument is the value of its derivative
tree wherever that tree has a value (`slope?_spec`).  The derivative tree of an integral contains
the derivative tree of the argument, so it differentiates back to the integrand wherever it has a
value at all (`integratePower_antiderives`, `integrateCall_antiderives`).
-/

namespace Fluxion

namespace Expr

/-- A tree differentiates back to another: where that tree and the derivative
tree have values, these values are the same. -/
def Antiderives (b : String → Exact) (name : String) (F f : Expr Exact) : Prop :=
  ∀ ⦃y d⦄, f.valueIn b = .real y → (F.diff name).valueIn b = .real d → d = y

section Rules

variable {b : String → Exact} {name : String} {x : ℝ} {e u v F G f g : Expr Exact} {y d s : ℝ}

/-! ### Slopes -/

/-- Where a tree and its derivative tree have values, the tree moves through
its value at that slope. -/
theorem jet_of_diff_at (here : b name = .real x) {p p' : ℝ}
    (value : e.valueIn b = .real p) (slope : (e.diff name).valueIn b = .real p') :
    ∃ j, e.jet (rising b name x) = some j ∧ j.value = p ∧ j.slope = p' := by
  have same : Function.update b name (.real x) = b := by rw [← here, Function.update_eq_self]
  rw [← same] at value slope
  exact jet_of_diff value slope

/-- A tree without the variable has the slope zero, if any. -/
theorem diff_eq_zero_of_not_mentions (here : b name = .real x) {p p' : ℝ}
    (absent : e.mentions name = false)
    (value : e.valueIn b = .real p) (slope : (e.diff name).valueIn b = .real p') :
    p' = 0 := by
  obtain ⟨j, hj, -, rfl⟩ := jet_of_diff_at here value slope
  exact j.slope_eq_zero (by rw [moves_of_jet hj, absent])

/-- A slope that integration reads off an argument is its derivative,
wherever that exists. -/
theorem slope?_spec {c : Exact} (h : u.slope? name = some c) :
    ∃ s, c = .real s ∧ s ≠ 0 ∧ u.mentions name = true ∧
      ∀ {b : String → Exact} {d}, (u.diff name).valueIn b = .real d → d = s := by
  unfold slope? at h
  split at h
  · cases h
  · next mentions =>
      rw [Bool.not_eq_true', Bool.not_eq_false] at mentions
      dsimp only at h
      split at h
      · cases h
      · next absent =>
          split at h
          · next finite =>
              rw [Option.some.injEq] at h
              subst h
              rw [Bool.and_eq_true, Bool.and_eq_true, Exact.isFinite_iff] at finite
              obtain ⟨⟨nonzero, s, value⟩, -⟩ := finite
              refine ⟨s, value, ?_, mentions, fun {b d} slope => ?_⟩
              · rw [value, Bool.not_eq_true'] at nonzero
                exact Exact.isZero_real_eq_false.1 nonzero
              · have simplified := (refines_simplify (u.diff name)).valueIn slope
                rw [Bool.not_eq_true] at absent
                have constant := valueIn_of_valueAt_of_not_mentions absent value b
                rw [derivative, simplified] at constant
                exact Exact.real.inj constant
          · cases h

/-- Dividing by a slope divides the derivative. -/
theorem valueIn_diff_dividedBy (nonzero : s ≠ 0)
    (slope : ((e.dividedBy (.real s)).diff name).valueIn b = .real d) :
    ∃ p', (e.diff name).valueIn b = .real p' ∧ d = p' / s := by
  unfold dividedBy at slope
  split at slope
  · next one =>
      cases Exact.isOne_iff.1 one
      exact ⟨d, slope, by simp⟩
  · split at slope
    · next minus =>
        cases Exact.isMinusOne_iff.1 minus
        rw [neg_def] at slope
        obtain ⟨_, p, _, p', ⟨⟩, hp, ⟨⟩, hp', rfl⟩ := valueIn_diff_mul.1 slope
        refine ⟨p', hp', ?_⟩
        push_cast
        ring
    · rw [div_def] at slope
      obtain ⟨p, _, p', _, hp, ⟨⟩, hp', ⟨⟩, -, rfl⟩ := valueIn_diff_div slope
      refine ⟨p', hp', ?_⟩
      push_cast
      field_simp
      ring

/-! ### Powers -/

/-- The value of a constant power does not depend on the variable, and
simplifying keeps it. -/
theorem valueAt_simplify_of_not_mentions {q : ℝ} {c : Exact}
    (absent : u.mentions name = false)
    (value : u.valueIn b = .real q) (finite : Scalar.isFinite (u.simplify.valueAt name c) = true) :
    u.simplify.valueAt name c = .real q := by
  obtain ⟨r, hr⟩ := Exact.isFinite_iff.1 finite
  have moved : u.valueIn (Function.update b name c) = .real q := by
    rw [valueIn_update_of_not_mentions absent, value]
  have simplified := (refines_simplify u).valueIn moved
  rw [valueIn_of_valueAt hr b] at simplified
  rw [hr, simplified]

/-- The logarithm of a linear argument, divided by the slope. -/
theorem valueIn_diff_log_dividedBy {c : Exact} (linear : u.slope? name = some c)
    (slope : (((call .log u).dividedBy c).diff name).valueIn b = .real d) :
    ∃ p, u.valueIn b = .real p ∧ p ≠ 0 ∧ d = 1 / p := by
  obtain ⟨s, rfl, nonzero, -, slope_eq⟩ := slope?_spec linear
  obtain ⟨d', slope', rfl⟩ := valueIn_diff_dividedBy nonzero slope
  obtain ⟨p, p', hp, hp', base, rfl⟩ := valueIn_diff_log.1 slope'
  refine ⟨p, hp, base, ?_⟩
  rw [slope_eq hp']
  field_simp

/-- The power of a linear argument, divided by the exponent and the slope. -/
theorem valueIn_diff_power_dividedBy {r : ℝ} (linear : u.slope? name = some (.real s))
    (slope : ((div (pow u (const (.real r))) (const (.real (r * s)))).diff name).valueIn b
      = .real d) :
    ∃ p, u.valueIn b = .real p ∧ d = p ^ (r - 1) := by
  obtain ⟨_, ⟨⟩, -, -, slope_eq⟩ := slope?_spec linear
  obtain ⟨_, _, _, _, -, ⟨⟩, hn, ⟨⟩, nonzero, rfl⟩ := valueIn_diff_div slope
  obtain ⟨p, _, p', hp, ⟨⟩, hp', -, rfl⟩ := valueIn_diff_pow_of_exponent rfl hn
  obtain ⟨exponent, factor⟩ := mul_ne_zero_iff.1 nonzero
  refine ⟨p, hp, ?_⟩
  rw [slope_eq hp', Int.cast_zero]
  field_simp
  ring

/-- A power of a constant base, whose exponent is linear. -/
theorem valueIn_diff_exponential {c : ℝ}
    (base : u.mentions name = false) (linear : v.slope? name = some (.real s))
    (constant : u.valueIn b = .real c)
    (slope : ((pow u v).diff name).valueIn b = .real d) :
    ∃ q, v.valueIn b = .real q ∧ d = c ^ q * Real.log c * s := by
  obtain ⟨_, ⟨⟩, -, exponent, slope_eq⟩ := slope?_spec linear
  obtain ⟨p, q, q', hp, hq, hq', -, rfl⟩ := valueIn_diff_pow_of_base base exponent slope
  cases constant.symm.trans hp
  exact ⟨q, hq, by rw [slope_eq hq']⟩

/-- The integral of a power with a linear exponent: the power itself over the slope
and the logarithm of its base, with shorter forms for the bases `e` and one. -/
inductive ExponentialIntegral (name : String) (u v : Expr Exact) (s : ℝ) : Expr Exact → Prop where
  | euler (base : u = named .e) : ExponentialIntegral name u v s ((pow u v).dividedBy (.real s))
  | one (base : ∀ b, u.valueIn b = .real 1) : ExponentialIntegral name u v s (var name)
  | general (c : ℝ) (L : Expr Exact) (positive : 0 < c) (other : c ≠ 1)
      (base : ∀ b, u.valueIn b = .real c) (absent : L.mentions name = false)
      (divisor : ∀ b, L.valueIn b = .real (s * Real.log c)) :
      ExponentialIntegral name u v s (div (pow u v) L)

/-- An integral of a power with the variable in the exponent is that of an
exponential with a linear exponent. -/
theorem integratePower_of_base
    (exponent : v.mentions name = true) (ok : integratePower name u v = .ok F) :
    u.mentions name = false ∧
      ∃ s, v.slope? name = some (.real s) ∧ s ≠ 0 ∧ ExponentialIntegral name u v s F := by
  simp only [integratePower, exponent, Bool.not_true, Bool.false_eq_true, if_false] at ok
  split at ok
  · next base =>
      rw [Bool.not_eq_true'] at base
      refine ⟨base, ?_⟩
      split at ok
      · cases ok
      · next c linear =>
          obtain ⟨s, rfl, nonzero, -, -⟩ := slope?_spec linear
          refine ⟨s, linear, nonzero, ?_⟩
          split at ok
          · next euler =>
              cases ok
              exact .euler (eq_of_beq euler)
          · split at ok
            · cases ok
            · next positive =>
                rw [Bool.not_eq_true', Bool.not_eq_false, Exact.isPositive_iff] at positive
                obtain ⟨c, constant, positive⟩ := positive
                have value : ∀ b, u.valueIn b = .real c :=
                  valueIn_of_valueAt_of_not_mentions base constant
                have logarithm : ∀ b, (call .log u).valueIn b = .real (Real.log c) := fun b =>
                  valueIn_call.2 ⟨c, value b, positive, rfl⟩
                rw [constant] at ok
                split at ok
                · next one =>
                    cases Exact.isOne_iff.1 one
                    cases ok
                    exact .one (by simpa using value)
                · next other =>
                    have other : c ≠ 1 := by
                      rintro rfl
                      exact other (Exact.isOne_iff.2 (by rw [Exact.ofInt_eq, Int.cast_one]))
                    split at ok
                    · next one =>
                        cases Exact.isOne_iff.1 one
                        cases ok
                        refine .general c _ positive other value base ?_
                        intro b
                        rw [logarithm b, Int.cast_one, one_mul]
                    · cases ok
                      refine .general c _ positive other value ?_ fun b => ?_
                      · simpa [mentions] using base
                      · exact valueIn_mul.2 ⟨s, _, rfl, logarithm b, rfl⟩
  · cases ok

/-- Powers with a constant exponent are integrated rightly, the
reciprocal by a logarithm. -/
theorem integratePower_antiderives_of_exponent
    (exponent : v.mentions name = false) (ok : integratePower name u v = .ok F) :
    Antiderives b name F (pow u v) := by
  intro y d value slope
  obtain ⟨p, q, hp, hq, defined, rfl⟩ := valueIn_pow.1 value
  simp only [integratePower, exponent, Bool.not_false, if_true] at ok
  split at ok
  · cases ok
  · next c linear =>
      obtain ⟨s, rfl, nonzero, -, -⟩ := slope?_spec linear
      split at ok
      · cases ok
      · next finite =>
          rw [Bool.not_eq_true', Bool.not_eq_false] at finite
          rw [valueAt_simplify_of_not_mentions exponent hq finite] at ok
          split at ok
          · next minus =>
              cases Exact.isMinusOne_iff.1 minus
              cases ok
              obtain ⟨_, hp₂, -, rfl⟩ := valueIn_diff_log_dividedBy linear slope
              cases hp.symm.trans hp₂
              rw [Int.cast_neg, Int.cast_one, Real.rpow_neg_one, one_div]
          · cases ok
            obtain ⟨_, hp₂, rfl⟩ := valueIn_diff_power_dividedBy linear slope
            cases hp.symm.trans hp₂
            rw [Int.cast_one, add_sub_cancel_right]

theorem integratePower_antiderives_of_base (here : b name = .real x)
    (exponent : v.mentions name = true) (ok : integratePower name u v = .ok F) :
    Antiderives b name F (pow u v) := by
  intro y d value slope
  obtain ⟨p, q, hp, hq, defined, rfl⟩ := valueIn_pow.1 value
  obtain ⟨base, s, linear, nonzero, shape⟩ := integratePower_of_base exponent ok
  cases shape with
  | euler euler =>
      subst euler
      cases hp
      obtain ⟨_, slope', rfl⟩ := valueIn_diff_dividedBy nonzero slope
      obtain ⟨_, hq₂, rfl⟩ := valueIn_diff_exponential base linear (valueIn_named _) slope'
      cases hq.symm.trans hq₂
      rw [Constant.real, Real.log_exp]
      field_simp
  | one one =>
      cases hp.symm.trans (one b)
      rw [diff, if_pos rfl] at slope
      cases slope
      rw [Real.one_rpow, Int.cast_one]
  | general c L positive other constant absent divisor =>
      cases hp.symm.trans (constant b)
      obtain ⟨_, l, _, l', -, hl, power, hl', divides, rfl⟩ := valueIn_diff_div slope
      obtain ⟨_, hq₂, rfl⟩ := valueIn_diff_exponential base linear hp power
      cases hq.symm.trans hq₂
      cases (divisor b).symm.trans hl
      obtain ⟨-, logarithm⟩ := mul_ne_zero_iff.1 divides
      rw [diff_eq_zero_of_not_mentions here absent hl hl']
      field_simp
      ring

/-- Powers are integrated rightly, whichever operand is constant. -/
theorem integratePower_antiderives (here : b name = .real x)
    (ok : integratePower name u v = .ok F) : Antiderives b name F (pow u v) := by
  cases exponent : v.mentions name with
  | false => exact integratePower_antiderives_of_exponent exponent ok
  | true => exact integratePower_antiderives_of_base here exponent ok

/-! ### Functions of a linear argument -/

theorem valueIn_diff_squared
    (slope : ((squared u).diff name).valueIn b = .real d) :
    ∃ p p', u.valueIn b = .real p ∧ (u.diff name).valueIn b = .real p' ∧ d = 2 * p * p' := by
  obtain ⟨p, _, p', hp, ⟨⟩, hp', -, rfl⟩ := valueIn_diff_pow_of_exponent rfl slope
  refine ⟨p, p', hp, hp', ?_⟩
  norm_num

/-- The derivative of an opposite, where it has a value. -/
theorem valueIn_diff_neg
    (slope : ((-u).diff name).valueIn b = .real d) :
    ∃ p p', u.valueIn b = .real p ∧ (u.diff name).valueIn b = .real p' ∧ d = -p' := by
  obtain ⟨_, p, _, p', ⟨⟩, hp, ⟨⟩, hp', rfl⟩ := valueIn_diff_mul.1 slope
  refine ⟨p, p', hp, hp', ?_⟩
  push_cast
  ring

/-- The root `√(1 - u²)`, which the integrals of the inverse sine and cosine share. -/
theorem valueIn_diff_root {p : ℝ} (hp : u.valueIn b = .real p) (inside : -1 ≤ p ∧ p ≤ 1)
    (slope : ((call .sqrt (int 1 - squared u)).diff name).valueIn b = .real d) :
    ∃ p', (u.diff name).valueIn b = .real p' ∧ d = -(p * p') * (1 / Real.sqrt (1 - p ^ 2)) := by
  have radicand : (int 1 - squared u).valueIn b = .real (1 - p ^ 2) :=
    valueIn_sub.2 ⟨1, p ^ 2, by simp, valueIn_squared.2 ⟨p, hp, rfl⟩, rfl⟩
  have defined : Elementary.sqrt.Defined (1 - p ^ 2) := by
    show 0 ≤ 1 - p ^ 2
    nlinarith
  obtain ⟨d', slope', smooth, rfl⟩ := valueIn_diff_call .sqrt radicand defined slope
  obtain ⟨_, q', ⟨⟩, hq', rfl⟩ := valueIn_diff_sub.1 slope'
  obtain ⟨_, p', hp₂, hp', rfl⟩ := valueIn_diff_squared hq'
  cases hp.symm.trans hp₂
  refine ⟨p', hp', ?_⟩
  rw [Elementary.slope, Int.cast_zero]
  ring

/-! The integrals of the functions over their arguments: each differentiates to the function times
the slope of the argument. -/

section Primitives

variable {p : ℝ} (hp : u.valueIn b = .real p)

include hp

/-- The integral of the logarithm differentiates back, by the product rule.  The
lemmas below do the same for the other functions, whose rules are alike. -/
theorem valueIn_diff_primitive_log (defined : 0 < p)
    (slope : ((u * call .log u - u).diff name).valueIn b = .real d) :
    ∃ p', (u.diff name).valueIn b = .real p' ∧ d = Real.log p * p' := by
  obtain ⟨_, p', product, hp', rfl⟩ := valueIn_diff_sub.1 slope
  obtain ⟨_, q, _, q', hp₂, hq, hp₃, hq', rfl⟩ := valueIn_diff_mul.1 product
  obtain ⟨_, hp₄, -, rfl⟩ := valueIn_diff_call .log hp defined hq'
  cases hp.symm.trans hp₂
  cases hp'.symm.trans hp₃
  cases hp'.symm.trans hp₄
  cases hq.symm.trans (valueIn_call.2 ⟨p, hp, defined, rfl⟩)
  refine ⟨p', hp', ?_⟩
  simp only [Elementary.slope, Elementary.real]
  field_simp
  ring

theorem valueIn_diff_primitive_sin
    (slope : ((-call .cos u).diff name).valueIn b = .real d) :
    ∃ p', (u.diff name).valueIn b = .real p' ∧ d = Real.sin p * p' := by
  obtain ⟨_, q', -, hq', rfl⟩ := valueIn_diff_neg slope
  obtain ⟨p', hp', -, rfl⟩ := valueIn_diff_call .cos hp trivial hq'
  refine ⟨p', hp', ?_⟩
  rw [Elementary.slope, neg_mul, neg_neg]

/-- The integral of the tangent differentiates back, left and right of
its poles alike. -/
theorem valueIn_diff_primitive_tan
    (slope : ((-call .log (call .cos u)).diff name).valueIn b = .real d) :
    ∃ p', (u.diff name).valueIn b = .real p' ∧ d = Real.tan p * p' := by
  obtain ⟨_, q', -, hq', rfl⟩ := valueIn_diff_neg slope
  obtain ⟨r, r', hr, hr', -, rfl⟩ := valueIn_diff_log.1 hq'
  obtain ⟨p', hp', -, rfl⟩ := valueIn_diff_call .cos hp trivial hr'
  cases hr.symm.trans (valueIn_call.2 ⟨p, hp, trivial, rfl⟩)
  refine ⟨p', hp', ?_⟩
  simp only [Elementary.slope, Elementary.real]
  rw [Real.tan_eq_sin_div_cos]
  ring

/-- The integral of the arcsine differentiates back strictly inside its
domain, where the root does not vanish. -/
theorem valueIn_diff_primitive_arcsin (inside : -1 ≤ p ∧ p ≤ 1)
    (slope : ((u * call .arcsin u + call .sqrt (int 1 - squared u)).diff name).valueIn b
      = .real d) :
    ∃ p', (u.diff name).valueIn b = .real p' ∧ d = Real.arcsin p * p' := by
  obtain ⟨_, _, product, root, rfl⟩ := valueIn_diff_add.1 slope
  obtain ⟨_, q, p', q', hp₂, hq, hp', hq', rfl⟩ := valueIn_diff_mul.1 product
  obtain ⟨_, hp₃, -, rfl⟩ := valueIn_diff_call .arcsin hp inside hq'
  obtain ⟨_, hp₄, rfl⟩ := valueIn_diff_root hp inside root
  cases hp.symm.trans hp₂
  cases hp'.symm.trans hp₃
  cases hp'.symm.trans hp₄
  cases hq.symm.trans (valueIn_call.2 ⟨p, hp, inside, rfl⟩)
  refine ⟨p', hp', ?_⟩
  simp only [Elementary.slope, Elementary.real]
  ring

theorem valueIn_diff_primitive_arccos (inside : -1 ≤ p ∧ p ≤ 1)
    (slope : ((u * call .arccos u - call .sqrt (int 1 - squared u)).diff name).valueIn b
      = .real d) :
    ∃ p', (u.diff name).valueIn b = .real p' ∧ d = Real.arccos p * p' := by
  obtain ⟨_, _, product, root, rfl⟩ := valueIn_diff_sub.1 slope
  obtain ⟨_, q, p', q', hp₂, hq, hp', hq', rfl⟩ := valueIn_diff_mul.1 product
  obtain ⟨_, hp₃, -, rfl⟩ := valueIn_diff_call .arccos hp inside hq'
  obtain ⟨_, hp₄, rfl⟩ := valueIn_diff_root hp inside root
  cases hp.symm.trans hp₂
  cases hp'.symm.trans hp₃
  cases hp'.symm.trans hp₄
  cases hq.symm.trans (valueIn_call.2 ⟨p, hp, inside, rfl⟩)
  refine ⟨p', hp', ?_⟩
  simp only [Elementary.slope, Elementary.real]
  ring

/-- The integral of the arctangent differentiates back everywhere. -/
theorem valueIn_diff_primitive_arctan
    (slope : ((u * call .arctan u - call .log (int 1 + squared u) / int 2).diff name).valueIn b
      = .real d) :
    ∃ p', (u.diff name).valueIn b = .real p' ∧ d = Real.arctan p * p' := by
  obtain ⟨_, _, product, quotient, rfl⟩ := valueIn_diff_sub.1 slope
  obtain ⟨_, q, p', q', hp₂, hq, hp', hq', rfl⟩ := valueIn_diff_mul.1 product
  obtain ⟨_, hp₃, -, rfl⟩ := valueIn_diff_call .arctan hp trivial hq'
  obtain ⟨_, _, _, _, -, ⟨⟩, logarithm, ⟨⟩, -, rfl⟩ := valueIn_diff_div quotient
  obtain ⟨r, _, hr, sum, -, rfl⟩ := valueIn_diff_log.1 logarithm
  obtain ⟨_, _, ⟨⟩, square, rfl⟩ := valueIn_diff_add.1 sum
  obtain ⟨_, _, hp₄, hp₅, rfl⟩ := valueIn_diff_squared square
  cases hp.symm.trans hp₂
  cases hp.symm.trans hp₄
  cases hp'.symm.trans hp₃
  cases hp'.symm.trans hp₅
  cases hq.symm.trans (valueIn_call.2 ⟨p, hp, trivial, rfl⟩)
  cases hr.symm.trans (valueIn_add.2 ⟨_, _, rfl, valueIn_squared.2 ⟨p, hp, rfl⟩, rfl⟩)
  refine ⟨p', hp', ?_⟩
  simp only [Elementary.slope, Elementary.real, Int.cast_zero, Int.cast_one, Int.cast_ofNat]
  ring

end Primitives

/-- Division by the slope of a linear argument makes an antiderivative
of such an integral. -/
theorem eq_of_primitive {c : Exact} {r : ℝ} (linear : u.slope? name = some c)
    (primitive : ∀ {d}, (G.diff name).valueIn b = .real d →
      ∃ p', (u.diff name).valueIn b = .real p' ∧ d = r * p')
    (slope : ((G.dividedBy c).diff name).valueIn b = .real d) :
    d = r := by
  obtain ⟨s, rfl, nonzero, -, slope_eq⟩ := slope?_spec linear
  obtain ⟨_, slope', rfl⟩ := valueIn_diff_dividedBy nonzero slope
  obtain ⟨p', hp', rfl⟩ := primitive slope'
  rw [slope_eq hp', mul_div_cancel_right₀ r nonzero]

/-- Functions of a linear argument are integrated rightly, one case for
each function. -/
theorem integrateCall_antiderives (here : b name = .real x) {f : Elementary}
    (ok : integrateCall name f u = .ok F) : Antiderives b name F (call f u) := by
  intro y d value slope
  obtain ⟨p, hp, defined, rfl⟩ := valueIn_call.1 value
  unfold integrateCall at ok
  split at ok
  · have nonneg : 0 ≤ p := defined
    have power : (pow u (const Scalar.half)).valueIn b = .real (p ^ (1 / 2 : ℝ)) := by
      refine valueIn_pow.2 ⟨p, 1 / 2, hp, Exact.half_eq, ?_, rfl⟩
      rcases nonneg.eq_or_lt with rfl | positive
      · exact PowerDefined.zero_left_iff.2 (by norm_num)
      · exact .of_pos positive _
    rw [integratePower_antiderives here ok power slope]
    exact (Real.sqrt_eq_rpow p).symm
  · cases ok
  · next c linear =>
      cases ok
      refine eq_of_primitive linear (fun slope => ?_) slope
      obtain ⟨p', hp', -, rfl⟩ := valueIn_diff_call .exp hp trivial slope
      exact ⟨p', hp', rfl⟩
  · next c linear =>
      cases ok
      exact eq_of_primitive linear (valueIn_diff_primitive_log hp defined) slope
  · next c linear =>
      cases ok
      exact eq_of_primitive linear (valueIn_diff_primitive_sin hp) slope
  · next c linear =>
      cases ok
      refine eq_of_primitive linear (fun slope => ?_) slope
      obtain ⟨p', hp', -, rfl⟩ := valueIn_diff_call .sin hp trivial slope
      exact ⟨p', hp', rfl⟩
  · next c linear =>
      cases ok
      exact eq_of_primitive linear (valueIn_diff_primitive_tan hp) slope
  · next c linear =>
      cases ok
      exact eq_of_primitive linear (valueIn_diff_primitive_arcsin hp defined) slope
  · next c linear =>
      cases ok
      exact eq_of_primitive linear (valueIn_diff_primitive_arccos hp defined) slope
  · next c linear =>
      cases ok
      exact eq_of_primitive linear (valueIn_diff_primitive_arctan hp) slope

end Rules

end Expr

end Fluxion
