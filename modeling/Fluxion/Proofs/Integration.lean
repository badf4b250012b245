import Fluxion.Proofs.Quotients

/-!
# Antiderivatives differentiate back

Where an integrand and the derivative tree of its antiderivative have values, these are the same,
for every rule of integration (`integrate_correct`).

One rule asks for more.  Integration by parts integrates one factor of a product and simplifies
the result before it goes on.  The slope of that factor's argument was read off a derivative, and
simplification can make the argument lose the place where the derivative has no value: then the
slope that was read is no longer the slope of what is left.  The statement is therefore about
points where these arguments have a derivative (`PartsDifferentiable`).  All other rules keep the
argument as it is, and the derivative tree of the antiderivative asks for its derivative anyway.
-/

namespace Fluxion

namespace Expr

/-- The argument of a factor that is integrated by parts has a derivative. -/
def ArgumentDifferentiable (b : String → Exact) (name : String) : Expr Exact → Prop
  | mul k g =>
    if k.mentions name then k.ArgumentDifferentiable b name else g.ArgumentDifferentiable b name
  | div g _ => g.ArgumentDifferentiable b name
  | call _ u | pow _ u => ∃ p', (u.diff name).valueIn b = .real p'
  | _ => True

/-- In the products that integration meets, the factors that could go by parts
have arguments with a derivative. -/
def PartsDifferentiable (b : String → Exact) (name : String) : Expr Exact → Prop
  | add u v | sub u v => u.PartsDifferentiable b name ∧ v.PartsDifferentiable b name
  | mul u v =>
    if !u.mentions name then v.PartsDifferentiable b name
    else if !v.mentions name then u.PartsDifferentiable b name
    else
      (u.isPartsFactor name = true → u.ArgumentDifferentiable b name) ∧
        (v.isPartsFactor name = true → v.ArgumentDifferentiable b name)
  | div u v => if !v.mentions name then u.PartsDifferentiable b name else True
  | _ => True

section Rules

variable {b : String → Exact} {name : String} {x : ℝ} {e u v F G I f g : Expr Exact} {y d s : ℝ}

/-! ### Factors that are integrated by parts -/

/-- The factors that integration by parts integrates: exponentials, sines and
cosines of linear arguments, times and over factors without the variable. -/
inductive PartsFactor (name : String) : Expr Exact → Prop where
  | mulLeft {k g : Expr Exact} (absent : k.mentions name = false) (factor : PartsFactor name g) :
      PartsFactor name (mul k g)
  | mulRight {g k : Expr Exact} (absent : k.mentions name = false) (factor : PartsFactor name g) :
      PartsFactor name (mul g k)
  | div {g k : Expr Exact} (absent : k.mentions name = false) (factor : PartsFactor name g) :
      PartsFactor name (div g k)
  | exp {u : Expr Exact} {c : Exact} (linear : u.slope? name = some c) :
      PartsFactor name (call .exp u)
  | sin {u : Expr Exact} {c : Exact} (linear : u.slope? name = some c) :
      PartsFactor name (call .sin u)
  | cos {u : Expr Exact} {c : Exact} (linear : u.slope? name = some c) :
      PartsFactor name (call .cos u)
  | pow {k u : Expr Exact} {c : Exact} (absent : k.mentions name = false)
      (linear : u.slope? name = some c) : PartsFactor name (pow k u)

/-- What the test lets pass is a factor of the kind, times or divided by what
does not depend on the variable. -/
theorem partsFactor_of_isPartsFactor (factor : g.isPartsFactor name = true) :
    PartsFactor name g := by
  fun_induction isPartsFactor name g with
  | case1 k g absent ih => exact .mulLeft (by simpa using absent) (ih factor)
  | case2 g k occurs absent ih => exact .mulRight (by simpa using absent) (ih factor)
  | case3 => cases factor
  | case4 g k ih =>
      rw [Bool.and_eq_true, Bool.not_eq_true'] at factor
      exact .div factor.1 (ih factor.2)
  | case5 u =>
      obtain ⟨c, linear⟩ := Option.isSome_iff_exists.1 factor
      exact .exp linear
  | case6 u =>
      obtain ⟨c, linear⟩ := Option.isSome_iff_exists.1 factor
      exact .sin linear
  | case7 u =>
      obtain ⟨c, linear⟩ := Option.isSome_iff_exists.1 factor
      exact .cos linear
  | case8 k u =>
      rw [Bool.and_eq_true, Bool.not_eq_true'] at factor
      obtain ⟨c, linear⟩ := Option.isSome_iff_exists.1 factor.2
      exact .pow factor.1 linear
  | case9 => cases factor

/-- An argument with a slope depends on the variable, since a constant has none. -/
theorem mentions_of_slope? {c : Exact} (linear : u.slope? name = some c) :
    u.mentions name = true := by
  obtain ⟨s, -, -, occurs, -⟩ := slope?_spec linear
  exact occurs

theorem PartsFactor.mentions (factor : PartsFactor name g) : g.mentions name = true := by
  induction factor with
  | mulLeft absent factor ih => rw [Expr.mentions, ih, Bool.or_true]
  | mulRight absent factor ih => rw [Expr.mentions, ih, Bool.true_or]
  | div absent factor ih => rw [Expr.mentions, ih, Bool.true_or]
  | exp linear | sin linear | cos linear => rw [Expr.mentions, mentions_of_slope? linear]
  | pow absent linear => rw [Expr.mentions, mentions_of_slope? linear, Bool.or_true]

/-- Where such a factor has a derivative, so has its argument. -/
theorem PartsFactor.argumentDifferentiable {p p' : ℝ} (factor : PartsFactor name g)
    (value : g.valueIn b = .real p) (slope : (g.diff name).valueIn b = .real p') :
    g.ArgumentDifferentiable b name := by
  induction factor generalizing p p' with
  | mulLeft absent factor ih =>
      obtain ⟨_, _, _, _, -, hg, -, hg', -⟩ := valueIn_diff_mul.1 slope
      rw [ArgumentDifferentiable, absent, if_neg Bool.false_ne_true]
      exact ih hg hg'
  | mulRight absent factor ih =>
      obtain ⟨_, _, _, _, hg, -, hg', -, -⟩ := valueIn_diff_mul.1 slope
      rw [ArgumentDifferentiable, factor.mentions, if_pos rfl]
      exact ih hg hg'
  | div absent factor ih =>
      obtain ⟨_, _, _, _, hg, -, hg', -, -, -⟩ := valueIn_diff_div slope
      exact ih hg hg'
  | exp linear | sin linear | cos linear =>
      obtain ⟨_, hu, defined, -⟩ := valueIn_call.1 value
      obtain ⟨p', hp', -, -⟩ := valueIn_diff_call _ hu defined slope
      exact ⟨p', hp'⟩
  | pow absent linear =>
      obtain ⟨_, _, q', -, -, hq', -, -⟩ :=
        valueIn_diff_pow_of_base absent (mentions_of_slope? linear) slope
      exact ⟨q', hq'⟩

/-- A tree with a value and a derivative has all the derivatives that
integration could ask for. -/
theorem partsDifferentiable_of_diff {p p' : ℝ}
    (value : e.valueIn b = .real p) (slope : (e.diff name).valueIn b = .real p') :
    e.PartsDifferentiable b name := by
  induction e generalizing p p' with
  | add u v ihu ihv =>
      obtain ⟨_, _, hu, hv, -⟩ := valueIn_add.1 value
      obtain ⟨_, _, hu', hv', -⟩ := valueIn_diff_add.1 slope
      exact ⟨ihu hu hu', ihv hv hv'⟩
  | sub u v ihu ihv =>
      obtain ⟨_, _, hu, hv, -⟩ := valueIn_sub.1 value
      obtain ⟨_, _, hu', hv', -⟩ := valueIn_diff_sub.1 slope
      exact ⟨ihu hu hu', ihv hv hv'⟩
  | mul u v ihu ihv =>
      obtain ⟨_, _, _, _, hu, hv, hu', hv', -⟩ := valueIn_diff_mul.1 slope
      rw [PartsDifferentiable]
      split
      · exact ihv hv hv'
      · split
        · exact ihu hu hu'
        · exact ⟨fun factor => (partsFactor_of_isPartsFactor factor).argumentDifferentiable hu hu',
            fun factor => (partsFactor_of_isPartsFactor factor).argumentDifferentiable hv hv'⟩
  | div u v ihu ihv =>
      obtain ⟨_, _, _, _, hu, -, hu', -⟩ := valueIn_diff_div slope
      rw [PartsDifferentiable]
      split
      · exact ihu hu hu'
      · trivial
  | var | const | named | pow | call => trivial

/-! ### The integral of a factor -/

/-- A tree without the variable stands still wherever it has a value. -/
theorem jet_of_not_mentions_at {p : ℝ}
    (absent : e.mentions name = false) (value : e.valueIn b = .real p) :
    e.jet (rising b name x) = some (.still p) := by
  apply jet_rising_of_not_mentions absent
  rwa [valueIn_update_of_not_mentions absent]

/-- A function that is defined and smooth everywhere may be applied to any jet. -/
theorem jet_call_of_total {a : String → Option Jet} {j : Jet} (f : Elementary)
    (total : ∀ p, f.Defined p ∧ f.Smooth p) (h : u.jet a = some j) :
    (call f u).jet a = some (j.call f) :=
  jet_call.2 ⟨j, h, ⟨(total _).1, fun _ => (total _).2⟩, rfl⟩

theorem jet_dividedBy {a : String → Option Jet} {j : Jet} (nonzero : s ≠ 0)
    (h : e.jet a = some j) :
    ∃ k, (e.dividedBy (.real s)).jet a = some k ∧ k.slope = j.slope / s := by
  unfold dividedBy
  split
  · next one =>
      cases Exact.isOne_iff.1 one
      exact ⟨j, h, by simp⟩
  · split
    · next minus =>
        cases Exact.isMinusOne_iff.1 minus
        refine ⟨_, jet_mul.2 ⟨_, j, rfl, h, rfl⟩, ?_⟩
        rw [Jet.mul_slope, Jet.still_slope, Jet.still_value]
        push_cast
        ring
    · refine ⟨_, jet_div.2 ⟨j, _, h, rfl, nonzero, rfl⟩, ?_⟩
      rw [Jet.div_slope, Jet.still_slope, Jet.still_value]
      field_simp
      ring

/-- A linear argument with a derivative changes at the rate that
integration read off. -/
theorem jet_of_slope? (here : b name = .real x) {c : Exact} {p : ℝ}
    (linear : u.slope? name = some c) (value : u.valueIn b = .real p)
    (differentiable : ∃ p', (u.diff name).valueIn b = .real p') :
    ∃ s j, c = .real s ∧ s ≠ 0 ∧ u.jet (rising b name x) = some j ∧ j.value = p ∧ j.slope = s := by
  obtain ⟨s, rfl, nonzero, -, slope_eq⟩ := slope?_spec linear
  obtain ⟨p', hp'⟩ := differentiable
  obtain ⟨j, hj, rfl, rfl⟩ := jet_of_diff_at here value hp'
  exact ⟨s, j, rfl, nonzero, hj, rfl, slope_eq hp'⟩

/-- A power with a constant base above zero grows in proportion to itself. -/
theorem jet_exponential {j : Jet} {c : ℝ}
    (absent : u.mentions name = false) (base : u.valueIn b = .real c) (positive : 0 < c)
    (exponent : v.jet (rising b name x) = some j) :
    ∃ k, (pow u v).jet (rising b name x) = some k ∧
      k.slope = c ^ j.value * Real.log c * j.slope := by
  have defined : (Jet.still c).PowerDefined j :=
    ⟨.of_pos positive _, fun _ => positive, nofun⟩
  refine ⟨_, jet_pow.2 ⟨_, j, jet_of_not_mentions_at absent base, exponent, defined, rfl⟩, ?_⟩
  rw [Jet.pow_slope, Jet.still_slope, Jet.still_value, mul_zero, zero_add]

/-- The integral of an exponential has the exponential as its slope. -/
theorem jet_of_exponentialIntegral (here : b name = .real x) {j : Jet}
    (shape : ExponentialIntegral name u v s I) (nonzero : s ≠ 0)
    (absent : u.mentions name = false)
    (exponent : v.jet (rising b name x) = some j) (slope : j.slope = s)
    (value : (pow u v).valueIn b = .real y) :
    ∃ k, I.jet (rising b name x) = some k ∧ k.slope = y := by
  obtain ⟨p, q, hp, hq, -, rfl⟩ := valueIn_pow.1 value
  have same : j.value = q := by
    have current := valueIn_of_jet_rising exponent
    rw [← here, Function.update_eq_self, hq] at current
    exact (Exact.real.inj current).symm
  cases shape with
  | euler euler =>
      subst euler
      cases hp
      obtain ⟨k, power, powerSlope⟩ :=
        jet_exponential absent (valueIn_named .e) (Real.exp_pos 1) exponent
      obtain ⟨l, quotient, quotientSlope⟩ := jet_dividedBy nonzero power
      refine ⟨l, quotient, ?_⟩
      rw [quotientSlope, powerSlope, slope, same, Constant.real, Real.log_exp]
      field_simp
  | one one =>
      cases hp.symm.trans (one b)
      exact ⟨_, rising_self b name x, by simp⟩
  | general c L positive other constant apart divisor =>
      cases hp.symm.trans (constant b)
      obtain ⟨k, power, powerSlope⟩ := jet_exponential absent hp positive exponent
      have logarithm : Real.log p ≠ 0 := Real.log_ne_zero_of_pos_of_ne_one positive other
      have still := jet_of_not_mentions_at (x := x) apart (divisor b)
      refine ⟨_, jet_div.2 ⟨k, _, power, still, mul_ne_zero nonzero logarithm, rfl⟩, ?_⟩
      rw [Jet.div_slope, Jet.still_slope, Jet.still_value, powerSlope, slope, same]
      field_simp
      ring

/-- The integral of a factor has the value of the factor as its slope. -/
theorem PartsFactor.jet_integral {byParts : PartsRule Exact} (here : b name = .real x)
    (factor : PartsFactor name g) (arguments : g.ArgumentDifferentiable b name)
    (value : g.valueIn b = .real y) (ok : integrateUsing byParts name g = .ok I) :
    ∃ j, I.jet (rising b name x) = some j ∧ j.slope = y := by
  have occurs := factor.mentions
  induction factor generalizing y I with
  | @mulLeft k g absent factor ih =>
      rw [ArgumentDifferentiable, absent, if_neg Bool.false_ne_true] at arguments
      obtain ⟨p, q, hk, hg, rfl⟩ := valueIn_mul.1 value
      rw [integrateUsing, occurs] at ok
      simp only [Bool.not_true, Bool.false_eq_true, if_false, absent, Bool.not_false, if_true] at ok
      obtain ⟨J, integral, ok⟩ := bind_eq_ok ok
      cases ok
      obtain ⟨j, hj, rfl⟩ := ih arguments hg integral factor.mentions
      refine ⟨_, jet_mul.2 ⟨_, j, jet_of_not_mentions_at absent hk, hj, rfl⟩, ?_⟩
      simp
  | @mulRight g k absent factor ih =>
      rw [ArgumentDifferentiable, factor.mentions, if_pos rfl] at arguments
      obtain ⟨q, p, hg, hk, rfl⟩ := valueIn_mul.1 value
      rw [integrateUsing, occurs] at ok
      simp only [Bool.not_true, Bool.false_eq_true, if_false, absent, Bool.not_false, if_true,
        factor.mentions] at ok
      obtain ⟨J, integral, ok⟩ := bind_eq_ok ok
      cases ok
      obtain ⟨j, hj, rfl⟩ := ih arguments hg integral factor.mentions
      refine ⟨_, jet_mul.2 ⟨_, j, jet_of_not_mentions_at absent hk, hj, rfl⟩, ?_⟩
      rw [Jet.mul_slope, Jet.still_slope, Jet.still_value]
      ring
  | @div g k absent factor ih =>
      obtain ⟨q, p, hg, hk, nonzero, rfl⟩ := valueIn_div.1 value
      rw [integrateUsing, occurs] at ok
      simp only [Bool.not_true, Bool.false_eq_true, if_false, absent, Bool.not_false, if_true] at ok
      obtain ⟨J, integral, ok⟩ := bind_eq_ok ok
      cases ok
      obtain ⟨j, hj, rfl⟩ := ih arguments hg integral factor.mentions
      refine ⟨_, jet_div.2 ⟨j, _, hj, jet_of_not_mentions_at absent hk, nonzero, rfl⟩, ?_⟩
      rw [Jet.div_slope, Jet.still_slope, Jet.still_value]
      field_simp
      ring
  | exp linear =>
      obtain ⟨p, hp, -, rfl⟩ := valueIn_call.1 value
      obtain ⟨s, j, rfl, nonzero, hj, rfl, rfl⟩ := jet_of_slope? here linear hp arguments
      rw [integrateUsing, occurs] at ok
      simp only [Bool.not_true, Bool.false_eq_true, if_false, integrateCall, linear] at ok
      cases ok
      have outer := jet_call_of_total .exp (fun _ => ⟨trivial, trivial⟩) hj
      obtain ⟨k, hk, slope⟩ := jet_dividedBy nonzero outer
      refine ⟨k, hk, ?_⟩
      rw [slope, Jet.call_slope, mul_div_cancel_right₀ _ nonzero]
      rfl
  | @sin u c linear =>
      obtain ⟨p, hp, -, rfl⟩ := valueIn_call.1 value
      obtain ⟨s, j, rfl, nonzero, hj, rfl, rfl⟩ := jet_of_slope? here linear hp arguments
      rw [integrateUsing, occurs] at ok
      simp only [Bool.not_true, Bool.false_eq_true, if_false, integrateCall, linear] at ok
      cases ok
      have cosine := jet_call_of_total .cos (fun _ => ⟨trivial, trivial⟩) hj
      have negated : (-call .cos u).jet (rising b name x)
          = some (.still ((-1 : ℤ) : ℝ) * j.call .cos) :=
        jet_mul.2 ⟨_, _, jet_const.2 ⟨_, rfl, rfl⟩, cosine, rfl⟩
      obtain ⟨k, hk, slope⟩ := jet_dividedBy nonzero negated
      refine ⟨k, hk, ?_⟩
      rw [slope, Jet.mul_slope, Jet.still_slope, Jet.still_value, Jet.call_slope]
      simp only [Elementary.slope, Elementary.real]
      push_cast
      field_simp
      ring
  | cos linear =>
      obtain ⟨p, hp, -, rfl⟩ := valueIn_call.1 value
      obtain ⟨s, j, rfl, nonzero, hj, rfl, rfl⟩ := jet_of_slope? here linear hp arguments
      rw [integrateUsing, occurs] at ok
      simp only [Bool.not_true, Bool.false_eq_true, if_false, integrateCall, linear] at ok
      cases ok
      have outer := jet_call_of_total .sin (fun _ => ⟨trivial, trivial⟩) hj
      obtain ⟨k, hk, slope⟩ := jet_dividedBy nonzero outer
      refine ⟨k, hk, ?_⟩
      rw [slope, Jet.call_slope, mul_div_cancel_right₀ _ nonzero]
      rfl
  | pow absent linear =>
      obtain ⟨p, q, hp, hq, -, -⟩ := valueIn_pow.1 value
      obtain ⟨s, j, rfl, nonzero, hj, rfl, rfl⟩ := jet_of_slope? here linear hq arguments
      rw [integrateUsing, occurs] at ok
      simp only [Bool.not_true, Bool.false_eq_true, if_false] at ok
      obtain ⟨-, _, linear₂, -, shape⟩ := integratePower_of_base (mentions_of_slope? linear) ok
      cases linear.symm.trans linear₂
      exact jet_of_exponentialIntegral here shape nonzero absent hj rfl value

/-! ### Products -/

/-- What integration by parts must achieve at a point, for a factor whose
argument has a derivative there. -/
def PartsSound (b : String → Exact) (name : String) (x : ℝ) (byParts : PartsRule Exact) : Prop :=
  ∀ ⦃c : ℝ⦄ ⦃n : ℤ⦄ ⦃g F : Expr Exact⦄, byParts (.real c) n g = .ok F → 1 ≤ n →
    PartsFactor name g → g.ArgumentDifferentiable b name →
    ∀ ⦃y d⦄, g.valueIn b = .real y → (F.diff name).valueIn b = .real d → d = c * x ^ n * y

variable {byParts : PartsRule Exact}

/-- A monomial times a factor, integrated by parts. -/
theorem eq_of_parts (here : b name = .real x) (sound : PartsSound b name x byParts) {c : Exact}
    {n : ℤ} {p q : ℝ} (shape : u.monomial? name = some (c, n))
    (factor : 1 ≤ n ∧ v.isPartsFactor name = true)
    (arguments : v.isPartsFactor name = true → v.ArgumentDifferentiable b name)
    (hp : u.valueIn b = .real p) (hq : v.valueIn b = .real q)
    (ok : byParts c n v = .ok F) (slope : (F.diff name).valueIn b = .real d) :
    d = p * q := by
  obtain ⟨k, rfl, -, rfl⟩ := valueIn_of_monomial? here shape hp
  exact sound ok factor.1 (partsFactor_of_isPartsFactor factor.2) (arguments factor.2) hq slope

/-- Products are integrated rightly if integration by parts is, for both
orders of the factors. -/
theorem integrateProduct_antiderives (here : b name = .real x)
    (sound : PartsSound b name x byParts)
    (left : u.isPartsFactor name = true → u.ArgumentDifferentiable b name)
    (right : v.isPartsFactor name = true → v.ArgumentDifferentiable b name)
    (ok : integrateProduct byParts name u v = .ok F) : Antiderives b name F (mul u v) := by
  intro y d value slope
  obtain ⟨p, q, hp, hq, rfl⟩ := valueIn_mul.1 value
  unfold integrateProduct at ok
  split at ok
  · next result logarithmic =>
      cases ok
      cases first : integrateTimesLogarithm? name u v with
      | some G =>
          rw [first] at logarithmic
          cases logarithmic
          exact integrateTimesLogarithm?_antiderives here first value slope
      | none =>
          rw [first] at logarithmic
          have swapped : (mul v u).valueIn b = .real (p * q) :=
            valueIn_mul.2 ⟨q, p, hq, hp, mul_comm q p⟩
          exact integrateTimesLogarithm?_antiderives here logarithmic swapped slope
  · dsimp only at ok
    split at ok
    · next result parts =>
        subst ok
        split at parts
        · next c n shape =>
            split at parts
            · next factor =>
                exact eq_of_parts here sound shape factor right hp hq (Option.some.inj parts) slope
            · cases parts
        · cases parts
    · split at ok
      · next result parts =>
          subst ok
          split at parts
          · next c n shape =>
              split at parts
              · next factor =>
                  rw [mul_comm]
                  exact eq_of_parts here sound shape factor left hq hp (Option.some.inj parts) slope
              · cases parts
          · cases parts
      · cases ok

/-! ### The recursion -/

/-- Integration differentiates back wherever integration by parts does. -/
theorem integrateUsing_antiderives (here : b name = .real x)
    (sound : PartsSound b name x byParts) (ok : integrateUsing byParts name f = .ok F)
    (parts : f.PartsDifferentiable b name) : Antiderives b name F f := by
  induction f using integrateUsing.induct name generalizing F with
  | case1 f absent =>
      rw [integrateUsing.eq_def, if_pos absent] at ok
      cases ok
      intro y d value slope
      rw [Bool.not_eq_true'] at absent
      obtain ⟨p, _, p', q', hp, hx, hp', hx', rfl⟩ := valueIn_diff_mul.1 slope
      cases value.symm.trans hp
      rw [diff, if_pos rfl] at hx'
      cases hx'
      rw [diff_eq_zero_of_not_mentions here absent hp hp', Int.cast_one]
      ring
  | case2 other occurs =>
      rw [integrateUsing, if_neg occurs] at ok
      cases ok
      intro y d value slope
      have same : other = name := by simpa [mentions] using occurs
      subst same
      obtain ⟨_, _, _, _, -, ⟨⟩, square, ⟨⟩, -, rfl⟩ := valueIn_diff_div slope
      obtain ⟨_, _, hx, hx', rfl⟩ := valueIn_diff_squared square
      cases value.symm.trans hx
      rw [diff, if_pos rfl] at hx'
      cases hx'
      push_cast
      ring
  | case3 | case4 => simp [mentions] at *
  | case5 u v occurs ihu ihv =>
      rw [integrateUsing, if_neg occurs] at ok
      obtain ⟨U, left, ok⟩ := bind_eq_ok ok
      obtain ⟨V, right, ok⟩ := bind_eq_ok ok
      cases ok
      intro y d value slope
      obtain ⟨p, q, hp, hq, rfl⟩ := valueIn_add.1 value
      obtain ⟨p', q', hp', hq', rfl⟩ := valueIn_diff_add.1 slope
      rw [ihu left parts.1 hp hp', ihv right parts.2 hq hq']
  | case6 u v occurs ihu ihv =>
      rw [integrateUsing, if_neg occurs] at ok
      obtain ⟨U, left, ok⟩ := bind_eq_ok ok
      obtain ⟨V, right, ok⟩ := bind_eq_ok ok
      cases ok
      intro y d value slope
      obtain ⟨p, q, hp, hq, rfl⟩ := valueIn_sub.1 value
      obtain ⟨p', q', hp', hq', rfl⟩ := valueIn_diff_sub.1 slope
      rw [ihu left parts.1 hp hp', ihv right parts.2 hq hq']
  | case7 u v absent occurs ih =>
      rw [integrateUsing, if_neg occurs, if_pos absent] at ok
      rw [PartsDifferentiable, if_pos absent] at parts
      obtain ⟨V, integral, ok⟩ := bind_eq_ok ok
      cases ok
      intro y d value slope
      rw [Bool.not_eq_true'] at absent
      obtain ⟨k, q, hk, hq, rfl⟩ := valueIn_mul.1 value
      obtain ⟨d', slope', rfl⟩ := valueIn_diff_const_mul here absent hk slope
      rw [ih integral parts hq slope']
  | case8 u v occursLeft absent occurs ih =>
      rw [integrateUsing, if_neg occurs, if_neg occursLeft, if_pos absent] at ok
      rw [PartsDifferentiable, if_neg occursLeft, if_pos absent] at parts
      obtain ⟨U, integral, ok⟩ := bind_eq_ok ok
      cases ok
      intro y d value slope
      rw [Bool.not_eq_true'] at absent
      obtain ⟨p, k, hp, hk, rfl⟩ := valueIn_mul.1 value
      obtain ⟨d', slope', rfl⟩ := valueIn_diff_const_mul here absent hk slope
      rw [ih integral parts hp slope', mul_comm]
  | case9 u v occursLeft occursRight occurs =>
      rw [integrateUsing, if_neg occurs, if_neg occursLeft, if_neg occursRight] at ok
      rw [PartsDifferentiable, if_neg occursLeft, if_neg occursRight] at parts
      exact integrateProduct_antiderives here sound parts.1 parts.2 ok
  | case10 u v absent occurs ih =>
      rw [integrateUsing, if_neg occurs, if_pos absent] at ok
      rw [PartsDifferentiable, if_pos absent] at parts
      obtain ⟨U, integral, ok⟩ := bind_eq_ok ok
      cases ok
      intro y d value slope
      rw [Bool.not_eq_true'] at absent
      obtain ⟨p, k, hp, hk, nonzero, rfl⟩ := valueIn_div.1 value
      obtain ⟨q, k₂, q', k', -, hk₂, hq', hk', -, rfl⟩ := valueIn_diff_div slope
      cases hk.symm.trans hk₂
      rw [ih integral parts hp hq', diff_eq_zero_of_not_mentions here absent hk hk']
      field_simp
      ring
  | case11 u v occursRight occurs =>
      rw [integrateUsing, if_neg occurs, if_neg occursRight] at ok
      exact integrateQuotient_antiderives here ok
  | case12 u v occurs =>
      rw [integrateUsing, if_neg occurs] at ok
      exact integratePower_antiderives here ok
  | case13 f u occurs =>
      rw [integrateUsing, if_neg occurs] at ok
      exact integrateCall_antiderives here ok

/-- A monomial is no factor of the kind, so parts are taken of the other
factor only. -/
theorem isPartsFactor_monomial {c : Exact} {n : ℤ} :
    (monomial name c n).isPartsFactor name = false := by
  unfold monomial
  dsimp only
  split
  · rfl
  · split <;> split <;> simp [isPartsFactor, Expr.mentions]

theorem partsDifferentiable_monomial {c : Exact} {n : ℤ} :
    (monomial name c n).PartsDifferentiable b name := by
  unfold monomial
  dsimp only
  split
  · trivial
  · split <;> split <;> simp [PartsDifferentiable, Expr.mentions]

/-- One integration by parts, whose two integrals differentiate back. -/
theorem parts_step (here : b name = .real x) {c : ℝ} {n : ℤ} {R : Expr Exact} (large : 1 ≤ n)
    (factor : PartsFactor name g) (arguments : g.ArgumentDifferentiable b name)
    (integral : integrateUsing byParts name g = .ok I)
    (remaining : (mul (monomial name (.real (c * n)) (n - 1)) I.simplify).PartsDifferentiable b
        name →
      Antiderives b name R (mul (monomial name (.real (c * n)) (n - 1)) I.simplify))
    (value : g.valueIn b = .real y)
    (slope : ((sub (mul (monomial name (.real c) n) I.simplify) R).diff name).valueIn b
      = .real d) :
    d = c * x ^ n * y := by
  obtain ⟨_, r, product, rest', rfl⟩ := valueIn_diff_sub.1 slope
  obtain ⟨m, G, m', G', hm, hG, hm', hG', rfl⟩ := valueIn_diff_mul.1 product
  -- simplifying keeps the slope of the integral, and the derivative tree computes it
  have integrand : G' = y := by
    obtain ⟨j, hj, rfl⟩ := factor.jet_integral here arguments value integral
    obtain ⟨k, hk, below⟩ := refines_simplify I _ j hj
    obtain ⟨k₂, hk₂, -, rfl⟩ := jet_of_diff_at here hG hG'
    cases hk.symm.trans hk₂
    exact below.2.1.symm
  subst integrand
  obtain ⟨-, rfl⟩ := (valueIn_monomial here).1 hm
  cases valueIn_diff_monomial here hm'
  have lower : (monomial name (.real (c * n)) (n - 1)).valueIn b
      = .real (c * n * x ^ (n - 1)) :=
    (valueIn_monomial here).2 ⟨.inr (by omega), rfl⟩
  have parts : (mul (monomial name (.real (c * n)) (n - 1)) I.simplify).PartsDifferentiable b
      name := by
    rw [PartsDifferentiable]
    split
    · exact partsDifferentiable_of_diff hG hG'
    · split
      · exact partsDifferentiable_monomial
      · refine ⟨fun factor => ?_, fun factor => ?_⟩
        · rw [isPartsFactor_monomial] at factor
          cases factor
        · exact (partsFactor_of_isPartsFactor factor).argumentDifferentiable hG hG'
  rw [remaining parts (valueIn_mul.2 ⟨_, G, lower, hG, rfl⟩) rest']
  ring

/-- Every budget is some rule for integration by parts. -/
theorem integrateWithin_eq_integrateUsing (name : String) (budget : Nat) :
    ∃ byParts : PartsRule Exact,
      ∀ e, integrateWithin name budget e = integrateUsing byParts name e := by
  cases budget with
  | zero => exact ⟨_, fun e => by rw [integrateWithin]⟩
  | succ budget => exact ⟨_, fun e => by rw [integrateWithin]⟩

/-- Integration within a budget differentiates back.  The induction is on the budget,
as one integration by parts leaves an integral with a smaller budget. -/
theorem integrateWithin_antiderives (here : b name = .real x) (budget : Nat)
    (ok : integrateWithin name budget f = .ok F)
    (parts : f.PartsDifferentiable b name) : Antiderives b name F f := by
  induction budget generalizing f F with
  | zero =>
      refine integrateUsing_antiderives here ?_ ok parts
      intro c n g F ok
      cases ok
  | succ budget ih =>
      refine integrateUsing_antiderives here ?_ ok parts
      intro c n g F ok large factor arguments y d value slope
      dsimp only at ok
      obtain ⟨I, integral, ok⟩ := bind_eq_ok ok
      obtain ⟨R, remaining, ok⟩ := bind_eq_ok ok
      cases ok
      obtain ⟨byParts, within⟩ := integrateWithin_eq_integrateUsing name budget
      rw [within] at integral
      exact parts_step here large factor arguments integral (ih remaining) value slope

end Rules

/-- An antiderivative differentiates back to the integrand.  At every point
where the integrand and the derivative tree of the antiderivative have values,
these are the same, if the arguments of the factors that integration by parts
integrates have derivatives there.  The induction is on the budget of
integrations by parts, and within one budget on the tree; each rule is sound
by itself, given that what it integrates in turn is. -/
theorem integrate_correct {f F : Expr Exact} {name : String} {a : String → Exact} {x y d : ℝ}
    (ok : f.integrate name = .ok F)
    (parts : f.PartsDifferentiable (Function.update a name (.real x)) name)
    (value : f.valueIn (Function.update a name (.real x)) = .real y)
    (slope : (F.diff name).valueIn (Function.update a name (.real x)) = .real d) :
    d = y :=
  integrateWithin_antiderives (Function.update_self ..) degreeLimit ok parts value slope

theorem slope?_var : (var "x" : Expr Exact).slope? "x" = some (Scalar.ofInt 1) := by
  have constant : (int 1 : Expr Exact).simplifyPass = int 1 := by simp [simplifyPass, simplified]
  have derivative : (var "x" : Expr Exact).derivative "x" = int 1 := by
    rw [derivative, diff, if_pos rfl]
    exact simplify_of_fixed constant
  have nonzero : Scalar.isZero (Exact.real 1) = false :=
    Exact.isZero_real_eq_false.2 one_ne_zero
  simp [slope?, derivative, mentions, valueAt, nonzero, Exact.isFinite_iff]

/-- The antiderivative of `x*exp(x)`, by one integration by parts. -/
theorem integrate_mul_exp :
    (mul (var "x") (call .exp (var "x")) : Expr Exact).integrate "x"
      = .ok (sub (mul (var "x") (call .exp (var "x")))
          (mul (const (Exact.real 1)) (call .exp (var "x")))) := by
  have one : Scalar.isOne (Exact.real 1) = true := Exact.isOne_iff.2 (by simp)
  have product : Exact.real 1 * Exact.real 1 = .real 1 :=
    Exact.mul_eq_real.2 ⟨1, 1, rfl, rfl, one_mul 1⟩
  have exponential : ∀ byParts : PartsRule Exact,
      integrateUsing byParts "x" (call .exp (var "x")) = .ok (call .exp (var "x")) := by
    intro byParts
    simp [integrateUsing, mentions, integrateCall, slope?_var, dividedBy, one]
  have first : integrateWithin "x" 63 (call .exp (var "x")) =
      .ok (call .exp (var "x") : Expr Exact) := by
    obtain ⟨byParts, within⟩ := integrateWithin_eq_integrateUsing "x" 63
    rw [within, exponential]
  have second : integrateWithin "x" 63 (const (Exact.real 1) * call .exp (var "x")) =
      .ok (const (Exact.real 1) * call .exp (var "x")) := by
    obtain ⟨byParts, within⟩ := integrateWithin_eq_integrateUsing "x" 63
    rw [within, mul_def, integrateUsing, exponential]
    rfl
  have fixed : (call .exp (var "x") : Expr Exact).simplifyPass = call .exp (var "x") := by
    simp [simplifyPass, simplified, settle, reduceRoot, simplifyCall]
  have simplified := simplify_of_fixed fixed
  show integrateWithin "x" (63 + 1) _ = _
  rw [integrateWithin, integrateUsing]
  simp [mentions, integrateProduct, integrateTimesLogarithm?, monomial?, isPartsFactor, slope?_var,
    monomial, one, product, first, second, simplified, bind, Except.bind]
  rfl

/-- At the point one, the antiderivative of `x*exp(x)` differentiates back to `e`. -/
theorem integrate_correct_of_mul_exp :
    let f : Expr Exact := mul (var "x") (call .exp (var "x"))
    let F : Expr Exact := sub f (mul (const (Exact.real 1)) (call .exp (var "x")))
    let b : String → Exact := Function.update (fun _ => .undefined) "x" (.real 1)
    f.integrate "x" = .ok F ∧ f.PartsDifferentiable b "x" ∧
      f.valueIn b = .real (1 * Real.exp 1) ∧
      (F.diff "x").valueIn b = .real (1 * Real.exp 1 + 1 * (Real.exp 1 * 1)
        - (0 * Real.exp 1 + 1 * (Real.exp 1 * 1))) ∧
      1 * Real.exp 1 + 1 * (Real.exp 1 * 1) - (0 * Real.exp 1 + 1 * (Real.exp 1 * 1))
        = 1 * Real.exp 1 := by
  intro f F b
  have exponential : (call .exp (var "x")).valueIn b = .real (Real.exp 1) :=
    valueIn_call.2 ⟨1, rfl, trivial, rfl⟩
  have unit : (int 1 : Expr Exact).valueIn b = .real 1 := by rw [valueIn_int, Int.cast_one]
  have zero : (int 0 : Expr Exact).valueIn b = .real 0 := by rw [valueIn_int, Int.cast_zero]
  have exponential' : ((call .exp (var "x")).diff "x").valueIn b = .real (Real.exp 1 * 1) :=
    valueIn_mul.2 ⟨_, _, exponential, unit, rfl⟩
  have value : f.valueIn b = .real (1 * Real.exp 1) := valueIn_mul.2 ⟨_, _, rfl, exponential, rfl⟩
  have slope : (F.diff "x").valueIn b = .real (1 * Real.exp 1 + 1 * (Real.exp 1 * 1)
      - (0 * Real.exp 1 + 1 * (Real.exp 1 * 1))) :=
    valueIn_diff_sub.2 ⟨_, _,
      valueIn_diff_mul.2 ⟨_, _, _, _, rfl, exponential, unit, exponential', rfl⟩,
      valueIn_diff_mul.2 ⟨_, _, _, _, rfl, exponential, zero, exponential', rfl⟩, rfl⟩
  have parts : f.PartsDifferentiable b "x" := by
    simp only [f, PartsDifferentiable, mentions, ArgumentDifferentiable]
    exact ⟨fun moves => Bool.noConfusion moves, fun _ => ⟨1, unit⟩⟩
  exact ⟨integrate_mul_exp, parts, value, slope,
    integrate_correct integrate_mul_exp parts value slope⟩

end Expr

end Fluxion
