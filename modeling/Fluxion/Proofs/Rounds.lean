import Fluxion.Proofs.Integration
import Fluxion.Proofs.Linear

/-!
# Integration by parts comes to an end

Integration by parts goes on with the simplified antiderivative of a factor, which is no part of the
integrand.  What keeps it from getting stuck is a family that neither integration nor simplification
leaves: exponentials, sines and cosines of linear arguments, times and over constants
(`ScaledKernel`).  In every round the factor is of this family and the degree is one lower, so a
budget of as many rounds as the degree is enough (`exists_rounds`).
-/

namespace Fluxion.Expr

variable {name : String} {g k u : Expr Exact} {a : ℝ}

/-! ### The family -/

/-- The bases of exponentials: positive constants other than one, and
named constants. -/
inductive GrowthBase : Expr Exact → Prop
  | const {k : ℝ} (positive : 0 < k) (other : k ≠ 1) : GrowthBase (const (.real k))
  | named (c : Constant) : GrowthBase (named c)

/-- Exponentials, sines, cosines and growths of linear arguments.  Integrating
one gives such a function again, up to a factor. -/
inductive Kernel (name : String) : Expr Exact → Prop
  | exp {u : Expr Exact} (linear : Linear name u) : Kernel name (call .exp u)
  | sin {u : Expr Exact} (linear : Linear name u) : Kernel name (call .sin u)
  | cos {u : Expr Exact} (linear : Linear name u) : Kernel name (call .cos u)
  | power {k u : Expr Exact} (base : GrowthBase k) (linear : Linear name u) : Kernel name (pow k u)

/-- What integration divides kernels by: constants other than zero and
logarithms of bases, times such constants. -/
inductive Divisor : Expr Exact → Prop
  | const {d : ℝ} (nonzero : d ≠ 0) : Divisor (const (.real d))
  | log {k : Expr Exact} (base : GrowthBase k) : Divisor (call .log k)
  | scale {a : ℝ} {k : Expr Exact} (nonzero : a ≠ 0) (divisor : Divisor k) :
      Divisor (mul (const (.real a)) k)

/-- Kernels times constants other than zero and over divisors, in any order.  This
family is closed under integration, which is why parts never get stuck. -/
inductive ScaledKernel (name : String) : Expr Exact → Prop
  | kernel {g : Expr Exact} (kernel : Kernel name g) : ScaledKernel name g
  | scale {a : ℝ} {g : Expr Exact} (nonzero : a ≠ 0) (scaled : ScaledKernel name g) :
      ScaledKernel name (mul (const (.real a)) g)
  | quotient {g k : Expr Exact} (scaled : ScaledKernel name g) (divisor : Divisor k) :
      ScaledKernel name (div g k)

/-- The base of a growth does not depend on the variable. -/
theorem GrowthBase.mentions (base : GrowthBase k) : k.mentions name = false := by
  cases base <;> rfl

theorem GrowthBase.simplifyPass (base : GrowthBase k) : k.simplifyPass = k := by
  cases base <;> rw [simplifyPass_eq] <;> rfl

/-- A base is positive and not one. -/
theorem GrowthBase.valueAt (base : GrowthBase k) (name : String) (x : Exact) :
    ∃ v, k.valueAt name x = .real v ∧ 0 < v ∧ v ≠ 1 := by
  cases base with
  | const positive other => exact ⟨_, rfl, positive, other⟩
  | named c =>
    cases c with
    | pi => exact ⟨Real.pi, rfl, Real.pi_pos, by linarith [Real.pi_gt_three]⟩
    | e => exact ⟨Real.exp 1, rfl, Real.exp_pos 1, by simp⟩

theorem Divisor.mentions (divisor : Divisor k) : k.mentions name = false := by
  induction divisor with
  | const nonzero => rfl
  | log base => exact base.mentions
  | scale nonzero divisor ih => exact ih

theorem Kernel.mentions (kernel : Kernel name g) : g.mentions name = true := by
  cases kernel with
  | exp linear | sin linear | cos linear => exact linear.mentions
  | power base linear => rw [Expr.mentions, linear.mentions, Bool.or_true]

theorem ScaledKernel.mentions (scaled : ScaledKernel name g) : g.mentions name = true := by
  induction scaled with
  | kernel kernel => exact kernel.mentions
  | scale nonzero scaled ih => rw [Expr.mentions, ih, Bool.or_true]
  | quotient scaled divisor ih => rw [Expr.mentions, ih, Bool.true_or]

/-- Integration by parts accepts every member of the family. -/
theorem ScaledKernel.isPartsFactor (scaled : ScaledKernel name g) : g.isPartsFactor name = true := by
  induction scaled with
  | kernel kernel =>
    cases kernel with
    | exp linear | sin linear | cos linear =>
      obtain ⟨s, -, slope⟩ := linear.slope?
      rw [Expr.isPartsFactor, slope]
      rfl
    | power base linear =>
      obtain ⟨s, -, slope⟩ := linear.slope?
      rw [Expr.isPartsFactor, base.mentions, slope]
      rfl
  | scale nonzero scaled ih => simpa [Expr.isPartsFactor, Expr.mentions] using ih
  | quotient scaled divisor ih => simpa [Expr.isPartsFactor, divisor.mentions] using ih

/-! ### Simplification stays in the family -/

/-- A logarithm of a base stays, except that of `e`. -/
theorem Divisor.simplifyCall_log (base : GrowthBase k) : Divisor (simplifyCall .log k) := by
  have log : Divisor (call .log k) := .log base
  cases base with
  | const positive other =>
    rw [simplifyCall, Exact.isOne_real_eq_false.2 other]
    exact log
  | named c =>
    cases c with
    | pi => exact log
    | e => exact .const (by norm_num : ((1 : ℤ) : ℝ) ≠ 0)

theorem Divisor.of_scaling {t : Expr Exact} (divisor : Divisor k) (nonzero : a ≠ 0)
    (scaling : Scaling (.real a) k t) : Divisor t := by
  cases scaling with
  | dropped => exact divisor
  | merged =>
    obtain _ | _ | ⟨further, divisor⟩ := divisor
    exact .scale (mul_ne_zero nonzero further) divisor
  | numerator | exponent => cases divisor
  | kept => exact .scale nonzero divisor

theorem Divisor.closed : Closed Divisor where
  operands member each := by
    cases member with
    | const nonzero => exact .const nonzero
    | log base =>
      rw [mapOperands, base.simplifyPass]
      exact .log base
    | scale nonzero divisor =>
      rw [mapOperands, simplifyPass_const]
      exact .scale nonzero (each _ (.tail _ (.head _)) divisor)
  rule member := by
    cases member with
    | const nonzero => exact .const nonzero
    | log base => exact .simplifyCall_log base
    | @scale a k nonzero divisor =>
      have stays (compound : k.isConst = false) : Divisor (simplifyMul (.const (.real a)) k).tree :=
        divisor.of_scaling nonzero (simplifyMul_const nonzero compound)
      cases divisor with
      | const further => exact .const (mul_ne_zero nonzero further)
      | log | scale => exact stays rfl

/-- No rule changes a kernel with a simplified argument. -/
theorem Kernel.reduceRoot (kernel : Kernel name g) : reduceRoot g = .final g := by
  cases kernel with
  | exp linear | sin linear | cos linear => cases linear <;> rfl
  | power base linear =>
    cases base with
    | const positive other =>
      cases linear <;> simp [Expr.reduceRoot, simplifyPow, Exact.isOne_real_eq_false.2 other]
    | named c => cases linear <;> rfl

/-- No kernel is a power of a divisor that is not a constant. -/
theorem ScaledKernel.commonBase? (scaled : ScaledKernel name g) (divisor : Divisor k)
    (compound : k.isConst = false) : commonBase? g k = none := by
  cases scaled with
  | kernel kernel =>
    cases kernel with
    | exp | sin | cos => rfl
    | @power b u base linear =>
      have different : (b == k) = false := by
        rw [Bool.eq_false_iff]
        intro same
        cases eq_of_beq same
        cases base with
        | const => cases compound
        | named => cases divisor
      cases divisor with
      | const => cases compound
      | log | scale => simp [Expr.commonBase?, different]
  | scale | quotient => rfl

/-- A scaled kernel over what is not a number stays a quotient. -/
theorem ScaledKernel.simplifyDiv (scaled : ScaledKernel name g) (divisor : Divisor k)
    (compound : k.isConst = false) : simplifyDiv g k = .final (div g k) := by
  have numerator := not_const (isConst_eq_false scaled.mentions)
  have denominator := not_const compound
  have different := (beq_eq_false_of_mentions scaled.mentions divisor.mentions).1
  rw [simplifyDiv.eq_4 _ _ numerator denominator fun c _ same _ => numerator c same,
    dividePowers, different, scaled.commonBase? divisor compound]
  rfl

/-- A scaled kernel that is scaled again is a scaled kernel. -/
theorem ScaledKernel.of_scaling {t : Expr Exact} (scaled : ScaledKernel name g) (nonzero : a ≠ 0)
    (scaling : Scaling (.real a) g t) : ScaledKernel name t := by
  cases scaling with
  | dropped => exact scaled
  | merged =>
    obtain ⟨⟨⟩⟩ | ⟨further, scaled⟩ := scaled
    exact .scale (mul_ne_zero nonzero further) scaled
  | numerator =>
    obtain ⟨⟨⟩⟩ | _ | ⟨⟨⟨⟩⟩, -⟩ := scaled
  | exponent =>
    obtain ⟨_ | _ | _ | ⟨base, linear⟩⟩ := scaled
    exact .kernel (.power base (.add linear _))
  | kept => exact .scale nonzero scaled

/-- A scaled kernel that is divided by a number is a scaled kernel. -/
theorem ScaledKernel.of_division {t : Expr Exact} (scaled : ScaledKernel name g) (nonzero : a ≠ 0)
    (division : Division (.real a) g t) : ScaledKernel name t := by
  cases division with
  | dropped => exact scaled
  | negated => exact .scale (by norm_num) scaled
  | coefficient =>
    obtain ⟨⟨⟩⟩ | @⟨c, _, further, scaled⟩ := scaled
    have quotient : Exact.real c / .real a = .real (c / a) :=
      Exact.div_eq_real.2 ⟨c, a, rfl, rfl, nonzero, rfl⟩
    rw [quotient]
    exact .scale (div_ne_zero further nonzero) scaled
  | exponent =>
    obtain ⟨_ | _ | _ | ⟨base, linear⟩⟩ := scaled
    exact .kernel (.power base (.sub linear _))
  | kept => exact .quotient scaled (.const nonzero)

theorem ScaledKernel.closed (name : String) : Closed (ScaledKernel name) where
  operands member each := by
    have linear (u : Expr Exact) (linear : Linear name u) := (Linear.closed name).simplifyPass linear
    cases member with
    | kernel kernel =>
      cases kernel with
      | exp argument => exact .kernel (.exp (linear _ argument))
      | sin argument => exact .kernel (.sin (linear _ argument))
      | cos argument => exact .kernel (.cos (linear _ argument))
      | power base exponent =>
        rw [mapOperands, base.simplifyPass]
        exact .kernel (.power base (linear _ exponent))
    | scale nonzero scaled =>
      rw [mapOperands, simplifyPass_const]
      exact .scale nonzero (each _ (.tail _ (.head _)) scaled)
    | quotient scaled divisor =>
      exact .quotient (each _ (.head _) scaled) (Divisor.closed.simplifyPass divisor)
  rule member := by
    cases member with
    | kernel kernel =>
      rw [kernel.reduceRoot]
      exact .kernel kernel
    | scale nonzero scaled =>
      exact scaled.of_scaling nonzero (simplifyMul_const nonzero (isConst_eq_false scaled.mentions))
    | @quotient g k scaled divisor =>
      have stays (compound : k.isConst = false) : ScaledKernel name (Expr.simplifyDiv g k).tree := by
        rw [scaled.simplifyDiv divisor compound]
        exact .quotient scaled divisor
      cases divisor with
      | const nonzero =>
        exact scaled.of_division nonzero (simplifyDiv_const (isConst_eq_false scaled.mentions))
      | log | scale => exact stays rfl

/-! ### Integration stays in the family -/

theorem ScaledKernel.dividedBy (scaled : ScaledKernel name g) (nonzero : a ≠ 0) :
    ScaledKernel name (g.dividedBy (.real a)) := by
  unfold Expr.dividedBy
  split
  · exact scaled
  · split
    · exact .scale (by norm_num) scaled
    · exact .quotient scaled (.const nonzero)

theorem integrateUsing_const_mul {byParts : PartsRule Exact} {c : Exact} {I : Expr Exact}
    (occurs : g.mentions name = true) (integral : integrateUsing byParts name g = .ok I) :
    integrateUsing byParts name (mul (const c) g) = .ok (mul (const c) I) := by
  have moves : ¬(!(mul (const c) g).mentions name) = true := by
    rw [Expr.mentions, occurs, Bool.or_true]
    exact Bool.false_ne_true
  have absent : (!(const c).mentions name) = true := rfl
  rw [integrateUsing, if_neg moves, if_pos absent, integral]
  rfl

/-- An exponential with a base is divided by the slope, and by the logarithm
of the base if that is not one. -/
theorem exists_integratePower (base : GrowthBase k) (linear : Linear name u) :
    ∃ I, integratePower name k u = .ok I ∧ ScaledKernel name I := by
  have kernel : ScaledKernel name (pow k u) := .kernel (.power base linear)
  obtain ⟨s, nonzero, slope⟩ := linear.slope?
  obtain ⟨v, value, positive, other⟩ := base.valueAt name (Scalar.ofInt 0)
  have growth : Scalar.isPositive (Exact.real v) = true := Exact.isPositive_iff.2 ⟨v, rfl, positive⟩
  simp only [integratePower, linear.mentions, base.mentions, slope, value, growth,
    Exact.isOne_real_eq_false.2 other, Bool.not_true, Bool.not_false, Bool.false_eq_true, if_true, if_false]
  split
  · exact ⟨_, rfl, kernel.dividedBy nonzero⟩
  · split
    · exact ⟨_, rfl, .quotient kernel (.log base)⟩
    · exact ⟨_, rfl, .quotient kernel (.scale nonzero (.log base))⟩

/-- A kernel has an integral that is a scaled kernel again, without any
rule for parts. -/
theorem Kernel.exists_integral (kernel : Kernel name g) :
    ∃ I, (∀ byParts, integrateUsing byParts name g = .ok I) ∧ ScaledKernel name I := by
  have occurs := kernel.mentions
  cases kernel with
  | exp linear =>
    obtain ⟨s, nonzero, slope⟩ := linear.slope?
    refine ⟨_, fun byParts => ?_, (ScaledKernel.kernel (.exp linear)).dividedBy nonzero⟩
    simp [integrateUsing, occurs, integrateCall, slope]
  | sin linear =>
    obtain ⟨s, nonzero, slope⟩ := linear.slope?
    have cosine : ScaledKernel name (-call .cos _) := .scale (by norm_num) (.kernel (.cos linear))
    refine ⟨_, fun byParts => ?_, cosine.dividedBy nonzero⟩
    simp [integrateUsing, occurs, integrateCall, slope]
  | cos linear =>
    obtain ⟨s, nonzero, slope⟩ := linear.slope?
    refine ⟨_, fun byParts => ?_, (ScaledKernel.kernel (.sin linear)).dividedBy nonzero⟩
    simp [integrateUsing, occurs, integrateCall, slope]
  | power base linear =>
    obtain ⟨I, integral, stays⟩ := exists_integratePower base linear
    exact ⟨I, fun byParts => by simp [integrateUsing, occurs, integral], stays⟩

/-- A scaled kernel has an antiderivative among the scaled kernels, whatever
rule there is for products. -/
theorem ScaledKernel.exists_integral (scaled : ScaledKernel name g) :
    ∃ I, (∀ byParts, integrateUsing byParts name g = .ok I) ∧ ScaledKernel name I := by
  induction scaled with
  | kernel kernel => exact kernel.exists_integral
  | scale nonzero scaled ih =>
    obtain ⟨I, integral, stays⟩ := ih
    exact ⟨_, fun byParts => integrateUsing_const_mul scaled.mentions (integral byParts),
      .scale nonzero stays⟩
  | @quotient g k scaled divisor ih =>
    obtain ⟨I, integral, stays⟩ := ih
    have moves : ¬(!(div g k).mentions name) = true := by
      rw [(scaled.quotient divisor).mentions]
      exact Bool.false_ne_true
    have absent : (!k.mentions name) = true := by
      rw [divisor.mentions]
      rfl
    refine ⟨div I k, fun byParts => ?_, .quotient stays divisor⟩
    rw [integrateUsing, if_neg moves, if_pos absent, integral]
    rfl

/-! ### Powers of the variable -/

/-- The trees of `c * x^n`: a power of the variable, the variable for its
first power, and products of such a tree with constants. -/
inductive Monomial (name : String) : ℝ → ℕ → Expr Exact → Prop
  | var : Monomial name 1 1 (var name)
  | power (n : ℕ) : Monomial name 1 n (pow (var name) (const (.real n)))
  | scale {c : ℝ} {n : ℕ} {p : Expr Exact} (a : ℝ) (monomial : Monomial name c n p) :
      Monomial name (a * c) n (mul (const (.real a)) p)
  | scaleRight {c : ℝ} {n : ℕ} {p : Expr Exact} (monomial : Monomial name c n p) (a : ℝ) :
      Monomial name (a * c) n (mul p (const (.real a)))

namespace Monomial

variable {c : ℝ} {n : ℕ} {p : Expr Exact}

theorem mentions (monomial : Monomial name c n p) : p.mentions name = true := by
  induction monomial with
  | var | power => simp [Expr.mentions]
  | scale a monomial ih => rw [Expr.mentions, ih, Bool.or_true]
  | scaleRight monomial a ih => rw [Expr.mentions, ih, Bool.true_or]

/-- Degrees up to the limit are read off, and coefficients multiplied. -/
theorem monomial?_eq_some (monomial : Monomial name c n p) (limit : n ≤ degreeLimit) :
    p.monomial? name = some (Exact.real c, (n : ℤ)) := by
  induction monomial with
  | var => simp [Expr.monomial?]
  | power n =>
    have degree : Scalar.whole? (Exact.real (n : ℝ)) = some (n : ℤ) := Exact.whole?_eq_some.2 (by simp)
    simp [Expr.monomial?, degree, limit]
  | scale a monomial ih =>
    rw [Expr.monomial?, ih limit]
    rfl
  | scaleRight monomial a ih =>
    rw [Expr.monomial?, ih limit]
    · rfl
    · exact not_const (isConst_eq_false monomial.mentions)

/-- The tree that integration by parts writes for `c * x^n`. -/
theorem of_monomial (c : ℝ) (n : ℕ) :
    Monomial name c (n + 1) (Expr.monomial name (.real c) (n + 1)) := by
  have power : Monomial name 1 (n + 1)
      (if (n + 1 : ℤ) = 1 then Expr.var name else pow (Expr.var name) (int (n + 1))) := by
    split
    · next first =>
      obtain rfl : n = 0 := by omega
      exact .var
    · have tree : Monomial name 1 (n + 1) _ := .power (n + 1)
      rwa [show (const (.real ((n + 1 : ℕ) : ℝ)) : Expr Exact) = int (n + 1) by simp] at tree
  unfold Expr.monomial
  dsimp only
  rw [if_neg (by omega)]
  split
  · next one =>
    cases Exact.isOne_iff.1 one
    simpa using power
  · have product := Monomial.scale c power
    rwa [mul_one] at product

/-- No monomial is a logarithm. -/
theorem integrateTimesLogarithm? (monomial : Monomial name c n p) (u : Expr Exact) :
    integrateTimesLogarithm? name u p = none := by
  cases monomial <;> rfl

end Monomial

/-- A scaled kernel is not taken for a monomial, so the factors are told apart
in either order. -/
theorem ScaledKernel.monomial?_eq_none (scaled : ScaledKernel name g) : g.monomial? name = none := by
  induction scaled with
  | kernel kernel =>
    cases kernel with
    | exp | sin | cos => rfl
    | power base linear => cases base <;> rfl
  | scale nonzero scaled ih =>
    rw [Expr.monomial?, ih]
    rfl
  | quotient => rfl

/-- No scaled kernel is a logarithm. -/
theorem ScaledKernel.integrateTimesLogarithm? (scaled : ScaledKernel name g) (u : Expr Exact) :
    integrateTimesLogarithm? name u g = none := by
  obtain ⟨_ | _ | _ | _⟩ | _ | _ := scaled <;> rfl

/-- The product of a monomial and a scaled kernel goes by parts, in either order. -/
theorem ScaledKernel.integrateUsing_mul {c : ℝ} {n : ℕ} {p : Expr Exact}
    (scaled : ScaledKernel name g) (monomial : Monomial name c n p) (positive : 1 ≤ n)
    (limit : n ≤ degreeLimit) (byParts : PartsRule Exact) :
    integrateUsing byParts name (mul p g) = byParts (.real c) n g ∧
      integrateUsing byParts name (mul g p) = byParts (.real c) n g := by
  have degree : (1 : ℤ) ≤ n := by omega
  have shape := monomial.monomial?_eq_some limit
  constructor
  · simp [integrateUsing, Expr.mentions, monomial.mentions, scaled.mentions, integrateProduct,
      monomial.integrateTimesLogarithm?, scaled.integrateTimesLogarithm?, shape, degree,
      scaled.isPartsFactor]
  · simp [integrateUsing, Expr.mentions, monomial.mentions, scaled.mentions, integrateProduct,
      monomial.integrateTimesLogarithm?, scaled.integrateTimesLogarithm?, shape, degree,
      scaled.isPartsFactor, scaled.monomial?_eq_none]

/-! ### The rounds -/

/-- The rounds in which a product of `c * x^n` and a factor goes by parts,
with the result.  The factor is accepted in every round.  A round goes on with
the degree below and the simplified antiderivative of the factor; at degree
zero what is left is a constant in front of an integral. -/
inductive Rounds (name : String) : ℕ → ℝ → ℕ → Expr Exact → Expr Exact → Prop
  | last {budget : ℕ} {c : ℝ} {g I : Expr Exact} (accepted : g.isPartsFactor name = true)
      (integral : g.integrate name = .ok I) : Rounds name budget c 0 g (mul (const (.real c)) I)
  | round {budget : ℕ} {c : ℝ} {n : ℕ} {g G R : Expr Exact} (accepted : g.isPartsFactor name = true)
      (antiderivative : g.antiderivative name = .ok G)
      (recursion :
        integrateWithin name budget (mul (monomial name (.real (c * (n + 1))) n) G) = .ok R)
      (below : Rounds name budget (c * (n + 1)) n G R) :
      Rounds name (budget + 1) c (n + 1) g (sub (mul (monomial name (.real c) (n + 1)) G) R)

section Rounds

variable {budget : ℕ} {c : ℝ} {n : ℕ} {p : Expr Exact}

/-- The antiderivative does not depend on the budget, and simplified it is a
factor of the same kind. -/
theorem ScaledKernel.exists_antiderivative (scaled : ScaledKernel name g) :
    ∃ I, (∀ budget, integrateWithin name budget g = .ok I) ∧ ScaledKernel name I.simplify := by
  obtain ⟨I, integral, stays⟩ := scaled.exists_integral
  refine ⟨I, fun budget => ?_, (ScaledKernel.closed name).simplify stays⟩
  obtain ⟨byParts, within⟩ := integrateWithin_eq_integrateUsing name budget
  rw [within, integral]

/-- One round, if the product of the degree below has an integral for every
factor of the family. -/
theorem ScaledKernel.exists_round (scaled : ScaledKernel name g) (monomial : Monomial name c (n + 1) p)
    (limit : n + 1 ≤ degreeLimit)
    (below : ∀ G, ScaledKernel name G → ∃ R,
      integrateWithin name budget (mul (Expr.monomial name (.real (c * (n + 1))) n) G) = .ok R ∧
        Rounds name budget (c * (n + 1)) n G R) :
    ∃ F, integrateWithin name (budget + 1) (mul p g) = .ok F ∧
      integrateWithin name (budget + 1) (mul g p) = .ok F ∧ Rounds name (budget + 1) c (n + 1) g F := by
  obtain ⟨I, integral, stays⟩ := scaled.exists_antiderivative
  obtain ⟨R, recursion, rounds⟩ := below _ stays
  have antiderivative : g.antiderivative name = .ok I.simplify := by
    rw [antiderivative, integrate, integral]
    rfl
  have rest : Expr.monomial name (Exact.real c * Scalar.ofInt (n + 1 : ℕ)) ((n + 1 : ℕ) - 1)
      = Expr.monomial name (.real (c * (n + 1))) n := by
    have coefficient : Exact.real c * Scalar.ofInt (n + 1 : ℕ) = .real (c * (n + 1)) :=
      Exact.mul_eq_real.2 ⟨c, n + 1, rfl, by simp, rfl⟩
    rw [coefficient, Nat.cast_succ, add_sub_cancel_right]
  have product (e : Expr Exact)
      (parts : ∀ byParts, integrateUsing byParts name e = byParts (.real c) (n + 1 : ℕ) g) :
      integrateWithin name (budget + 1) e
        = .ok (sub (mul (Expr.monomial name (.real c) (n + 1)) I.simplify) R) := by
    rw [integrateWithin, parts]
    simp only [integral, rest, mul_def, recursion, bind, Except.bind]
    rfl
  have parts := scaled.integrateUsing_mul monomial (Nat.le_add_left 1 n) limit
  exact ⟨_, product _ fun byParts => (parts byParts).1, product _ fun byParts => (parts byParts).2,
    .round scaled.isPartsFactor antiderivative recursion rounds⟩

/-- A budget of as many rounds as the degree is enough. -/
theorem ScaledKernel.exists_rounds (scaled : ScaledKernel name g) (c : ℝ) (enough : n ≤ budget)
    (limit : n ≤ degreeLimit) :
    ∃ F, integrateWithin name budget (mul (monomial name (.real c) n) g) = .ok F ∧
      Rounds name budget c n g F := by
  induction n generalizing c g budget with
  | zero =>
    obtain ⟨I, integral, -⟩ := scaled.exists_integral
    obtain ⟨byParts, within⟩ := integrateWithin_eq_integrateUsing name budget
    refine ⟨mul (const (.real c)) I, ?_, .last scaled.isPartsFactor ?_⟩
    · rw [within, Expr.monomial, Nat.cast_zero, if_pos rfl]
      exact integrateUsing_const_mul scaled.mentions (integral byParts)
    · obtain ⟨byParts, within⟩ := integrateWithin_eq_integrateUsing name degreeLimit
      rw [integrate, within, integral]
  | succ n ih =>
    obtain ⟨budget, rfl⟩ := Nat.exists_eq_add_of_le' (Nat.le_of_add_left_le enough)
    obtain ⟨F, integral, -, rounds⟩ := scaled.exists_round (.of_monomial c n) limit fun G scaled =>
      ih scaled (c * (n + 1)) (Nat.le_of_succ_le_succ enough) (Nat.le_of_succ_le limit)
    exact ⟨F, integral, rounds⟩

end Rounds

/-- Integration by parts never gets stuck.  The product of `c * x^n`, for a
degree from 1 to 64, and an exponential, a sine or a cosine of a linear
argument has an antiderivative, the same for both orders of the factors.  It
comes from one round for each degree, and in every round the factor that is
integrated, which from the second round on is a simplified antiderivative, is
accepted again. -/
theorem parts_never_stuck {c : ℝ} {n : ℕ} {p : Expr Exact} (monomial : Monomial name c n p)
    (kernel : Kernel name g) (positive : 1 ≤ n) (limit : n ≤ 64) :
    ∃ F, (mul p g).integrate name = .ok F ∧ (mul g p).integrate name = .ok F ∧
      Rounds name 64 c n g F := by
  obtain ⟨n, rfl⟩ := Nat.exists_eq_add_of_le' positive
  exact (ScaledKernel.kernel kernel).exists_round monomial limit fun G scaled =>
    scaled.exists_rounds _ (by omega) (Nat.le_of_succ_le limit)

/-- The product of `3*x^2` and `exp(2*x - 1)` goes by parts twice. -/
theorem parts_never_stuck_of_quadratic :
    let p : Expr Exact := mul (const (.real 3)) (pow (var "x") (const (.real (2 : ℕ))))
    let g : Expr Exact := call .exp (sub (mul (const (.real 2)) (var "x")) (const (.real 1)))
    Monomial "x" (3 * 1) 2 p ∧ Kernel "x" g ∧ 1 ≤ 2 ∧ 2 ≤ 64 ∧
      ∃ F, (mul p g).integrate "x" = .ok F ∧ (mul g p).integrate "x" = .ok F ∧
        Rounds "x" 64 (3 * 1) 2 g F := by
  intro p g
  have monomial : Monomial "x" (3 * 1) 2 p := .scale 3 (.power 2)
  have kernel : Kernel "x" g := .exp (.sub (.scale two_ne_zero .var) 1)
  exact ⟨monomial, kernel, by decide, by decide, parts_never_stuck monomial kernel (by decide) (by decide)⟩

end Fluxion.Expr
