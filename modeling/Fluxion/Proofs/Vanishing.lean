import Fluxion.Proofs.Linear
import Fluxion.Proofs.Meaning
import Fluxion.Proofs.Variables

/-!
# Derivatives that vanish

The derivative tree of a formula without the variable is as large as any: a quotient of products and
powers whose parts need not have values.  One pass of simplification leaves nothing of it but the
constant zero, since each rule of differentiation multiplies or divides the vanishing derivative of
an operand by something else, and a zero beside anything, or over anything, is zero
(`Numeric.vanishes_diff`).  The one thing that could stand in the way is a constant that is not a
number, and simplification makes none where there was none (`Numeric.hereditary`).

This is how linear arguments are recognised whose coefficients are not written as constants: the
derivative of `k * x + d` is what `k` simplifies to (`slope?_of_affine`).
-/

namespace Fluxion.Expr

variable {name : String} {e u u' v : Expr Exact} {a b : ℝ}

/-! ### Trees whose constants are numbers -/

/-- Every constant of the tree is a number.  Constants that are nothing
would not cancel. -/
def Numeric : Expr Exact → Prop
  | const c => ∃ a, c = .real a
  | var _ | named _ => True
  | add u v | sub u v | mul u v | div u v | pow u v => u.Numeric ∧ v.Numeric
  | call _ u => u.Numeric

/-- Rules compute numbers from numbers: they form no quotient that is not
whole, and no power that is not finite. -/
theorem Numeric.hereditary : Hereditary Numeric where
  add := Iff.rfl
  sub := Iff.rfl
  mul := Iff.rfl
  div := Iff.rfl
  pow := Iff.rfl
  call _ := Iff.rfl
  int n := ⟨n, rfl⟩
  e := trivial
  sum := by
    rintro _ _ ⟨a, rfl⟩ ⟨b, rfl⟩
    exact ⟨a + b, rfl⟩
  difference := by
    rintro _ _ ⟨a, rfl⟩ ⟨b, rfl⟩
    exact ⟨a - b, rfl⟩
  product := by
    rintro _ _ ⟨a, rfl⟩ ⟨b, rfl⟩
    exact ⟨a * b, rfl⟩
  opposite := by
    rintro _ ⟨a, rfl⟩
    exact ⟨-a, rfl⟩
  quotient _ _ whole := by
    obtain ⟨n, quotient⟩ := Exact.isWhole_iff.1 whole
    exact ⟨n, quotient⟩
  power _ _ finite := Exact.isFinite_iff.1 finite

theorem numeric_int (n : ℤ) : (int n : Expr Exact).Numeric := ⟨n, rfl⟩

/-- Real constants are numbers. -/
theorem numeric_map (e : Expr ℝ) : (e.map Exact.real).Numeric := by
  induction e with
  | var | named => trivial
  | const c => exact ⟨c, rfl⟩
  | add u v ihu ihv | sub u v ihu ihv | mul u v ihu ihv | div u v ihu ihv | pow u v ihu ihv =>
    exact ⟨ihu, ihv⟩
  | call f u ih => exact ih

/-- Another carrier of constants does not change the names that occur. -/
theorem mentions_map {K L : Type} (f : K → L) (name : String) (e : Expr K) :
    (e.map f).mentions name = e.mentions name := by
  induction e with
  | var | const | named => rfl
  | add u v ihu ihv | sub u v ihu ihv | mul u v ihu ihv | div u v ihu ihv | pow u v ihu ihv =>
    rw [map, mentions, mentions, ihu, ihv]
  | call g u ih => exact ih

theorem Numeric.simplifyPass (numeric : e.Numeric) : e.simplifyPass.Numeric :=
  hereditary.closed.simplifyPass numeric

/-- A tree with real constants is one of them, or is no constant at all. -/
theorem Numeric.cases (numeric : e.Numeric) :
    (∃ a : ℝ, e = const (.real a)) ∨ e.isConst = false := by
  cases e with
  | const c =>
    obtain ⟨a, rfl⟩ := numeric
    exact .inl ⟨a, rfl⟩
  | _ => exact .inr rfl

/-! ### Zero and one beside a tree -/

/-- A constant behind a tree that is not one is zero, is one, or comes
to the front. -/
theorem simplifyMul_by_const (compound : u.isConst = false) (c : Exact) :
    simplifyMul u (const c) =
      if Scalar.isZero c then .final (int 0)
      else if Scalar.isOne c then .final u
      else scaled c u := by
  unfold simplifyMul
  split
  · cases compound
  · cases compound
  · next same =>
    cases same
    rfl
  -- the other rules are for products that no constant ends
  all_goals simp_all

theorem simplifyMul_by_zero (compound : u.isConst = false) :
    simplifyMul u (int 0) = .final (int 0) := by
  rw [simplifyMul_by_const compound, if_pos (Exact.isZero_iff.2 rfl)]

theorem simplifyMul_by_one (compound : u.isConst = false) :
    simplifyMul u (int 1) = .final u := by
  have nonzero : ¬Scalar.isZero (Scalar.ofInt 1 : Exact) = true := by simp [Exact.isZero_iff]
  rw [simplifyMul_by_const compound, if_neg nonzero, if_pos (Exact.isOne_iff.2 rfl)]

/-- Zero disappears from a sum, whichever side it stands on. -/
theorem simplifyAdd_zero (compound : v.isConst = false) :
    simplifyAdd (int 0) v = .final v ∧ simplifyAdd v (int 0) = .final v := by
  constructor
  · rw [simplifyAdd.eq_2 _ _ (not_const compound), if_pos (Exact.isZero_iff.2 rfl)]
  · rw [simplifyAdd.eq_3 _ _ (not_const compound), if_pos (Exact.isZero_iff.2 rfl)]

/-- Zero over a constant is zero, also over zero. -/
theorem simplifyDiv_zero_const (b : ℝ) :
    simplifyDiv (int 0) (const (Exact.real b)) = .final (int 0) := by
  unfold simplifyDiv
  dsimp only
  split
  · next divides =>
    have nonzero : b ≠ 0 := by
      simpa [Exact.isZero_real_eq_false] using (Bool.and_eq_true_iff.1 divides).1
    have quotient : (Scalar.ofInt 0 : Exact) / .real b = Scalar.ofInt 0 :=
      Exact.div_eq_real.2 ⟨0, b, by simp, rfl, nonzero, by simp⟩
    rw [quotient]
  · rw [if_pos (Exact.isZero_iff.2 rfl)]

theorem simplifyDiv_zero (compound : v.isConst = false) :
    simplifyDiv (int 0) v = .final (int 0) := by
  rw [simplifyDiv.eq_2 _ _ (not_const compound), if_pos (Exact.isZero_iff.2 rfl)]

/-! ### Trees that vanish -/

/-- One pass leaves the constant zero.  It says more than that the tree is
zero wherever it has a value. -/
def Vanishes (e : Expr Exact) : Prop := e.simplifyPass = int 0

namespace Vanishes

theorem zero : Vanishes (int 0) := simplifyPass_const _

theorem add (left : Vanishes u) (right : Vanishes v) : Vanishes (Expr.add u v) := by
  have sum := (simplifyPass_fold left right).1
  rwa [Int.cast_zero, add_zero, ← Int.cast_zero] at sum

theorem sub (left : Vanishes u) (right : Vanishes v) : Vanishes (Expr.sub u v) := by
  have difference := (simplifyPass_fold left right).2.1
  rwa [Int.cast_zero, sub_zero, ← Int.cast_zero] at difference

/-- Zero in front of any tree. -/
theorem mul (left : Vanishes u) (numeric : v.Numeric) : Vanishes (Expr.mul u v) := by
  rcases numeric.simplifyPass.cases with ⟨b, right⟩ | compound
  · have product := (simplifyPass_fold left right).2.2
    rwa [Int.cast_zero, zero_mul, ← Int.cast_zero] at product
  · rw [Vanishes, simplifyPass_eq, mapOperands, left, reduceRoot, simplifyMul_zero compound]

/-- Zero behind any tree. -/
theorem mul_left (numeric : u.Numeric) (right : Vanishes v) : Vanishes (Expr.mul u v) := by
  rcases numeric.simplifyPass.cases with ⟨a, left⟩ | compound
  · have product := (simplifyPass_fold left right).2.2
    rwa [Int.cast_zero, mul_zero, ← Int.cast_zero] at product
  · rw [Vanishes, simplifyPass_eq, mapOperands, right, reduceRoot, simplifyMul_by_zero compound]

/-- Zero over any tree, whatever that comes to. -/
theorem div (left : Vanishes u) (numeric : v.Numeric) : Vanishes (Expr.div u v) := by
  rw [Vanishes, simplifyPass_eq, mapOperands, left, reduceRoot]
  rcases numeric.simplifyPass.cases with ⟨b, right⟩ | compound
  · rw [right, simplifyDiv_zero_const]
  · rw [simplifyDiv_zero compound]

/-- The vanishing derivative of an argument makes that of the function vanish. -/
theorem chainRule (f : Elementary) (numeric : u.Numeric) (slope : Vanishes u') :
    Vanishes (chainRule f u u') := by
  cases f with
  | exp | sin => exact slope.mul_left numeric
  | cos => exact slope.mul_left ⟨numeric_int (-1), numeric⟩
  | log => exact slope.div numeric
  | sqrt => exact slope.div ⟨numeric_int 2, numeric⟩
  | tan => exact slope.div ⟨numeric, numeric_int 2⟩
  | arcsin => exact slope.div ⟨numeric_int 1, numeric, numeric_int 2⟩
  | arccos =>
    have opposite : Vanishes (-u') := slope.mul_left (numeric_int (-1))
    exact opposite.div ⟨numeric_int 1, numeric, numeric_int 2⟩
  | arctan => exact slope.div ⟨numeric_int 1, numeric, numeric_int 2⟩

end Vanishes

/-- The derivative of a tree without the variable vanishes in one pass. -/
theorem Numeric.vanishes_diff (numeric : e.Numeric) (absent : e.mentions name = false) :
    Vanishes (e.diff name) := by
  induction e with
  | var other =>
    have different : other ≠ name := by simpa [mentions] using absent
    rw [diff, if_neg different]
    exact .zero
  | const | named => exact .zero
  | add u v ihu ihv =>
    obtain ⟨absentLeft, absentRight⟩ := Bool.or_eq_false_iff.1 absent
    exact (ihu numeric.1 absentLeft).add (ihv numeric.2 absentRight)
  | sub u v ihu ihv =>
    obtain ⟨absentLeft, absentRight⟩ := Bool.or_eq_false_iff.1 absent
    exact (ihu numeric.1 absentLeft).sub (ihv numeric.2 absentRight)
  | mul u v ihu ihv =>
    obtain ⟨absentLeft, absentRight⟩ := Bool.or_eq_false_iff.1 absent
    exact ((ihu numeric.1 absentLeft).mul numeric.2).add
      ((ihv numeric.2 absentRight).mul_left numeric.1)
  | div u v ihu ihv =>
    obtain ⟨absentLeft, absentRight⟩ := Bool.or_eq_false_iff.1 absent
    have numerator := ((ihu numeric.1 absentLeft).mul numeric.2).sub
      ((ihv numeric.2 absentRight).mul numeric.1)
    exact numerator.div ⟨numeric.2, numeric_int 2⟩
  | pow u v ihu ihv =>
    obtain ⟨absentBase, absentExponent⟩ := Bool.or_eq_false_iff.1 absent
    -- without the variable in the exponent it is the rule for constant exponents
    rw [diff_pow_of_exponent absentExponent]
    have reduced : (v * u ^ (v - int 1)).Numeric := ⟨numeric.2, numeric.1, numeric.2, numeric_int 1⟩
    exact (ihu numeric.1 absentBase).mul_left reduced
  | call f u ih => exact (ih numeric absent).chainRule f numeric

/-! ### Linear arguments -/

/-- Beside a tree that vanishes the other one is left. -/
theorem simplifyPass_add_of_vanishes (vanishes : Vanishes u) (numeric : v.simplifyPass.Numeric) :
    (add u v).simplifyPass = v.simplifyPass ∧ (add v u).simplifyPass = v.simplifyPass := by
  rcases numeric.cases with ⟨b, folded⟩ | compound
  · have front := (simplifyPass_fold vanishes folded).1
    have behind := (simplifyPass_fold folded vanishes).1
    rw [Int.cast_zero, zero_add] at front
    rw [Int.cast_zero, add_zero] at behind
    exact ⟨front.trans folded.symm, behind.trans folded.symm⟩
  · obtain ⟨front, behind⟩ := simplifyAdd_zero compound
    constructor
    · rw [simplifyPass_eq, mapOperands, vanishes, reduceRoot, front]
    · rw [simplifyPass_eq, mapOperands, vanishes, reduceRoot, behind]

theorem simplifyPass_mul_one (numeric : u.Numeric) :
    (mul u (int 1)).simplifyPass = u.simplifyPass := by
  rcases numeric.simplifyPass.cases with ⟨a, folded⟩ | compound
  · have product := (simplifyPass_fold folded (simplifyPass_const (Exact.real (1 : ℤ)))).2.2
    rwa [Int.cast_one, mul_one, ← folded, ← Int.cast_one] at product
  · rw [simplifyPass_eq, mapOperands, simplifyPass_const, reduceRoot, simplifyMul_by_one compound]

section Affine

variable {k d : Expr Exact}

/-- One pass over the derivative of `k * x + d` leaves what it makes of `k`,
however `k` and `d` are written. -/
theorem simplifyPass_diff_affine (slope : k.Numeric) (intercept : d.Numeric)
    (absentSlope : k.mentions name = false) (absentIntercept : d.mentions name = false) :
    ((add (mul k (var name)) d).diff name).simplifyPass = k.simplifyPass := by
  have moved : (var name : Expr Exact).diff name = int 1 := if_pos rfl
  have front : Vanishes (mul (k.diff name) (var name)) :=
    (slope.vanishes_diff absentSlope).mul trivial
  have scaled : (mul k (int 1)).simplifyPass.Numeric := by
    rw [simplifyPass_mul_one slope]
    exact slope.simplifyPass
  have product : (add (mul (k.diff name) (var name)) (mul k (int 1))).simplifyPass
      = k.simplifyPass := by
    rw [(simplifyPass_add_of_vanishes front scaled).1, simplifyPass_mul_one slope]
  have behind := intercept.vanishes_diff absentIntercept
  rw [diff, diff, moved, add_def, add_def, mul_def, mul_def,
    (simplifyPass_add_of_vanishes behind (product ▸ slope.simplifyPass)).2, product]

/-- The derivative of an affine tree is its slope, simplified. -/
theorem derivative_affine (slope : k.Numeric) (intercept : d.Numeric)
    (absentSlope : k.mentions name = false) (absentIntercept : d.mentions name = false) :
    (add (mul k (var name)) d).derivative name = k.simplify := by
  rw [derivative, simplify,
    simplifyPass_diff_affine slope intercept absentSlope absentIntercept, simplify]

/-- The slope of `k * x + d` is read off wherever `k` has a value other than
zero and `d` has a value, however the two are written. -/
theorem slope?_of_affine (slope : k.Numeric) (intercept : d.Numeric)
    (absentSlope : k.mentions name = false) (absentIntercept : d.mentions name = false)
    (nonzero : a ≠ 0) (valueSlope : k.valueAt name (.real 0) = .real a)
    (valueIntercept : d.valueAt name (.real 0) = .real b) :
    (add (mul k (var name)) d).slope? name = some (.real a) := by
  have derivative := derivative_affine slope intercept absentSlope absentIntercept
  have absent : k.simplify.mentions name = false := by
    rw [Bool.eq_false_iff]
    intro occurs
    rw [k.over_mentions.simplify name occurs] at absentSlope
    cases absentSlope
  have value : k.simplify.valueAt name (.real 0) = .real a := by
    rw [valueAt_eq_valueIn] at valueSlope ⊢
    exact (refines_simplify k).valueIn valueSlope
  have atZero : (add (mul k (var name)) d).valueAt name (.real 0) = .real (a * 0 + b) := by
    rw [valueAt, valueAt, valueSlope, valueIntercept, valueAt, if_pos rfl]
    rfl
  have moving := Exact.isZero_real_eq_false.2 nonzero
  simp [Expr.slope?, mentions, derivative, absent, value, atZero, moving, Exact.isFinite_iff]

end Affine

/-- The derivative of a tree without the variable is the constant zero after
one pass, and so is the simplified derivative.  With such a tree for an
intercept, the derivative of a linear argument is what the slope simplifies
to.  This is what makes slopes recognisable, as a test for a slope looks at
the simplified derivative. -/
theorem diff_collapses_in_one_pass {e : Expr ℝ} (absent : e.mentions name = false) :
    ((e.map Exact.real).diff name).simplifyPass = int 0 ∧
      (e.map Exact.real).derivative name = int 0 ∧
      ∀ k : Expr ℝ, k.mentions name = false →
        ((add (mul k (var name)) e).map Exact.real).derivative name
          = (k.map Exact.real).simplify := by
  have absent_map (k : Expr ℝ) (absent : k.mentions name = false) :
      (k.map Exact.real).mentions name = false := (mentions_map Exact.real name k).trans absent
  have collapsed := (numeric_map e).vanishes_diff (absent_map e absent)
  refine ⟨collapsed, simplify_of_simplifyPass_const collapsed, ?_⟩
  intro k absentSlope
  exact derivative_affine (numeric_map k) (numeric_map e) (absent_map k absentSlope)
    (absent_map e absent)

/-- The quotient `y ^ ln(-1) / (t - t)`, where the logarithm and the quotient
are not defined, and the line `2*y*x + y ^ ln(-1) / (t - t)`. -/
theorem diff_collapses_in_one_pass_of_undefined :
    let e : Expr ℝ := div (pow (var "y") (call .log (const (-1)))) (sub (var "t") (var "t"))
    let k : Expr ℝ := mul (const 2) (var "y")
    ((e.map Exact.real).diff "x").simplifyPass = int 0 ∧
      (e.map Exact.real).derivative "x" = int 0 ∧
      ((add (mul k (var "x")) e).map Exact.real).derivative "x" = (k.map Exact.real).simplify := by
  intro e k
  have absent : e.mentions "x" = false := rfl
  obtain ⟨pass, simplified, linear⟩ := diff_collapses_in_one_pass absent
  exact ⟨pass, simplified, linear k rfl⟩

end Fluxion.Expr
