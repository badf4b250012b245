import Mathlib.Analysis.SpecialFunctions.Pow.Deriv
import Mathlib.Analysis.SpecialFunctions.Trigonometric.ArctanDeriv
import Mathlib.Analysis.SpecialFunctions.Trigonometric.InverseDeriv
import Fluxion.Expr.Basic

/-!
# Exact numbers

The carrier of exact real arithmetic.  An exact number is a real number or nothing: a quotient by
zero, a power or a function outside its real domain has no result, and an operation on nothing has
none either.  Everything symbolic runs over this carrier as it does over machine numbers, with no
rounding and no overflow.

A power exists for a positive base, for the base zero with an exponent that is not negative, and
for a negative base with a whole exponent (`PowerDefined`).  Where it exists it is the real power
`a ^ b`, for which the laws of exponents are collected here.
-/

namespace Fluxion

/-- A real number, or nothing.  It is the carrier over which formulas mean what they
mean in analysis, with partial functions made total by the second case. -/
inductive Exact where
  | undefined
  | real (value : ℝ)

/-- Where the real power exists: for bases above zero, for zero with exponents
that are not negative, and for bases below zero with whole exponents. -/
def PowerDefined (a b : ℝ) : Prop :=
  0 < a ∨ a = 0 ∧ 0 ≤ b ∨ a < 0 ∧ ∃ n : ℤ, b = n

namespace Exact

open Classical in
/-- A number that exists under a condition. -/
noncomputable def when (condition : Prop) (value : ℝ) : Exact :=
  if condition then real value else undefined

@[simp] theorem when_eq_real {condition : Prop} {value y : ℝ} :
    when condition value = real y ↔ condition ∧ value = y := by
  unfold when
  split <;> simp_all

theorem when_of {condition : Prop} (holds : condition) (value : ℝ) :
    when condition value = real value := when_eq_real.2 ⟨holds, rfl⟩

/-- Applies an operation that may have no result.  On nothing there is none either. -/
def lift (operation : ℝ → Exact) : Exact → Exact
  | undefined => undefined
  | real a => operation a

/-- Applies an operation on two numbers that may have no result. -/
def lift₂ (operation : ℝ → ℝ → Exact) : Exact → Exact → Exact
  | real a, real b => operation a b
  | _, _ => undefined

/-- An operation has a result only on a number. -/
@[simp] theorem lift_eq_real {operation : ℝ → Exact} {u : Exact} {y : ℝ} :
    lift operation u = real y ↔ ∃ a, u = real a ∧ operation a = real y := by
  cases u <;> simp [lift]

/-- An operation on two numbers has a result only if both exist. -/
@[simp] theorem lift₂_eq_real {operation : ℝ → ℝ → Exact} {u v : Exact} {y : ℝ} :
    lift₂ operation u v = real y ↔
      ∃ a b, u = real a ∧ v = real b ∧ operation a b = real y := by
  cases u <;> cases v <;> simp [lift₂]

open Classical in
/-- Real arithmetic as a carrier.  Every operation without a result, and every
one on nothing, gives nothing; tests are those of the reals. -/
noncomputable instance : Scalar Exact where
  add := lift₂ fun a b => real (a + b)
  sub := lift₂ fun a b => real (a - b)
  mul := lift₂ fun a b => real (a * b)
  div := lift₂ fun a b => when (b ≠ 0) (a / b)
  neg := lift fun a => real (-a)
  beq
    | real a, real b => decide (a = b)
    | _, _ => false
  ofInt n := real n
  pi := real Real.pi
  e := real (Real.exp 1)
  undefined := undefined
  pow := lift₂ fun a b => when (PowerDefined a b) (a ^ b)
  abs := lift fun a => real |a|
  exp := lift fun a => real (Real.exp a)
  log := lift fun a => when (0 < a) (Real.log a)
  sqrt := lift fun a => when (0 ≤ a) (Real.sqrt a)
  sin := lift fun a => real (Real.sin a)
  cos := lift fun a => real (Real.cos a)
  tan := lift fun a => when (Real.cos a ≠ 0) (Real.tan a)
  arcsin := lift fun a => when (-1 ≤ a ∧ a ≤ 1) (Real.arcsin a)
  arccos := lift fun a => when (-1 ≤ a ∧ a ≤ 1) (Real.arccos a)
  arctan := lift fun a => real (Real.arctan a)
  less
    | real a, real b => decide (a < b)
    | _, _ => false
  isFinite
    | real _ => true
    | undefined => false
  whole?
    | real a => if a = ⌊a⌋ then some ⌊a⌋ else none
    | undefined => none

/-! ### Operations with a result -/

variable {u v : Exact} {y : ℝ}

/-- A sum exists exactly if both terms do. -/
@[simp] theorem add_eq_real :
    u + v = real y ↔ ∃ a b, u = real a ∧ v = real b ∧ a + b = y :=
  lift₂_eq_real.trans (by simp)

@[simp] theorem sub_eq_real :
    u - v = real y ↔ ∃ a b, u = real a ∧ v = real b ∧ a - b = y :=
  lift₂_eq_real.trans (by simp)

@[simp] theorem mul_eq_real :
    u * v = real y ↔ ∃ a b, u = real a ∧ v = real b ∧ a * b = y :=
  lift₂_eq_real.trans (by simp)

/-- A quotient exists exactly if both operands do and the divisor is not zero. -/
@[simp] theorem div_eq_real :
    u / v = real y ↔ ∃ a b, u = real a ∧ v = real b ∧ b ≠ 0 ∧ a / b = y :=
  lift₂_eq_real.trans (by simp)

/-- A power exists exactly if both operands do and the real power is
defined for them. -/
@[simp] theorem pow_eq_real :
    Scalar.pow u v = real y ↔
      ∃ a b, u = real a ∧ v = real b ∧ PowerDefined a b ∧ a ^ b = y :=
  lift₂_eq_real.trans (by simp)

@[simp] theorem neg_real (a : ℝ) : -real a = real (-a) := rfl

/-- Whole numbers are the real ones. -/
@[simp] theorem ofInt_eq (n : ℤ) : (Scalar.ofInt n : Exact) = real n := rfl

theorem half_eq : (Scalar.half : Exact) = real (1 / 2) := by
  refine div_eq_real.2 ⟨1, 2, ?_, ?_, two_ne_zero, rfl⟩
  · rw [ofInt_eq, Int.cast_one]
  · rw [ofInt_eq, Int.cast_ofNat]

/-! ### Laws that hold whether or not there is a result -/

section Laws

variable (u v w : Exact)

/-- Numbers that exist alike are the same. -/
theorem eq_of_real_iff {u v : Exact} (h : ∀ y, u = real y ↔ v = real y) : u = v := by
  cases u with
  | real a => exact ((h a).1 rfl).symm
  | undefined =>
      cases v with
      | undefined => rfl
      | real b => cases (h b).2 rfl

/-- Sums may be regrouped, whether or not they exist.  The laws below all hold
in this sense. -/
theorem add_assoc : u + v + w = u + (v + w) := by
  cases u <;> cases v <;> cases w <;> first | rfl | exact congrArg real (by ring)

theorem add_sub_assoc : u + v - w = u + (v - w) := by
  cases u <;> cases v <;> cases w <;> first | rfl | exact congrArg real (by ring)

theorem sub_eq_add_neg : u - v = u + -v := by
  cases u <;> cases v <;> rfl

/-- Multiplying by minus one is negation, which is how trees write it. -/
theorem neg_one_mul : real (-1) * u = -u := by
  cases u <;> first | rfl | exact congrArg real (by ring)

theorem mul_assoc : u * v * w = u * (v * w) := by
  cases u <;> cases v <;> cases w <;> first | rfl | exact congrArg real (by ring)

theorem neg_mul : -u * v = -(u * v) := by
  cases u <;> cases v <;> first | rfl | exact congrArg real (by ring)

theorem mul_div_assoc : u * v / w = u * (v / w) := by
  apply eq_of_real_iff
  intro y
  simp only [div_eq_real, mul_eq_real]
  constructor
  · rintro ⟨_, c, ⟨a, b, rfl, rfl, rfl⟩, rfl, nonzero, rfl⟩
    exact ⟨a, b / c, rfl, ⟨b, c, rfl, rfl, nonzero, rfl⟩, by ring⟩
  · rintro ⟨a, _, rfl, ⟨b, c, rfl, rfl, nonzero, rfl⟩, rfl⟩
    exact ⟨a * b, c, ⟨a, b, rfl, rfl, rfl⟩, rfl, nonzero, by ring⟩

theorem neg_div : -u / v = -(u / v) := by
  rw [← neg_one_mul, ← neg_one_mul, mul_div_assoc]

/-- A power of zero is zero or does not exist, unless the exponent is zero.  A
minus sign in front of it therefore changes nothing. -/
theorem neg_zero_pow {v : Exact} (nonzero : v ≠ real 0) :
    -Scalar.pow (real 0) v = Scalar.pow (real 0) v := by
  cases v with
  | undefined => rfl
  | real b =>
      have zero : (0 : ℝ) ^ b = 0 := Real.zero_rpow fun hb => nonzero (congrArg real hb)
      show -when (PowerDefined 0 b) (0 ^ b) = when (PowerDefined 0 b) (0 ^ b)
      rw [zero]
      by_cases defined : PowerDefined 0 b
      · rw [when_of defined, neg_real, neg_zero]
      · rw [when, if_neg defined]
        rfl

/-- The powers of `e` are the exponentials, which is why both may be written
for each other. -/
theorem pow_e : Scalar.pow Scalar.e v = Scalar.exp v := by
  cases v with
  | undefined => rfl
  | real b =>
      show when (PowerDefined (Real.exp 1) b) (Real.exp 1 ^ b) = real (Real.exp b)
      rw [when_of (.inl (Real.exp_pos 1)), Real.exp_one_rpow]

end Laws

/-! ### Tests -/

/-- Comparison finds numbers equal that exist and are the same; nothing is not
equal to itself. -/
@[simp] theorem beq_iff : (u == v) = true ↔ ∃ a, u = real a ∧ v = real a := by
  cases u <;> cases v <;> simp [BEq.beq, eq_comm]

theorem beq_ofInt {n : ℤ} : (u == Scalar.ofInt n) = true ↔ u = Scalar.ofInt n := by
  simp [and_comm]

/-- The test for zero is exact, as are the tests for one and minus one. -/
theorem isZero_iff : Scalar.isZero u = true ↔ u = Scalar.ofInt 0 := beq_ofInt

theorem isZero_real_eq_false {a : ℝ} : Scalar.isZero (real a) = false ↔ a ≠ 0 := by
  rw [Bool.eq_false_iff, Ne, isZero_iff]
  simp

theorem isOne_iff : Scalar.isOne u = true ↔ u = Scalar.ofInt 1 := beq_ofInt

theorem isOne_real_eq_false {a : ℝ} : Scalar.isOne (real a) = false ↔ a ≠ 1 := by
  rw [Bool.eq_false_iff, Ne, isOne_iff]
  simp

theorem isMinusOne_iff : Scalar.isMinusOne u = true ↔ u = Scalar.ofInt (-1) := beq_ofInt

/-- The order is that of the reals, and nothing stands in no order. -/
theorem less_iff : Scalar.less u v = true ↔ ∃ a b, u = real a ∧ v = real b ∧ a < b := by
  cases u <;> cases v <;> simp [Scalar.less]

theorem isPositive_iff : Scalar.isPositive u = true ↔ ∃ a, u = real a ∧ 0 < a := by
  rw [Scalar.isPositive, less_iff]
  simp

theorem isNegative_iff : Scalar.isNegative u = true ↔ ∃ a, u = real a ∧ a < 0 := by
  rw [Scalar.isNegative, less_iff]
  simp

/-- Finite is what exists. -/
theorem isFinite_iff : Scalar.isFinite u = true ↔ ∃ a, u = real a := by
  cases u <;> simp [Scalar.isFinite]

theorem isFinite_real (a : ℝ) : Scalar.isFinite (real a) = true := isFinite_iff.2 ⟨a, rfl⟩

/-- The integer that is handed out is the number itself. -/
theorem whole?_eq_some {n : ℤ} : Scalar.whole? u = some n ↔ u = real n := by
  cases u with
  | undefined => simp [Scalar.whole?]
  | real a =>
      simp only [Scalar.whole?, Option.ite_none_right_eq_some, Option.some.injEq, real.injEq]
      constructor
      · rintro ⟨whole, rfl⟩
        exact whole
      · rintro rfl
        simp

theorem isWhole_iff : Scalar.isWhole u = true ↔ ∃ n : ℤ, u = real n := by
  simp [Scalar.isWhole, Option.isSome_iff_exists, whole?_eq_some]

end Exact

/-! ### Named constants and functions over the reals -/

/-- The real number a named constant denotes. -/
noncomputable def Constant.real : Constant → ℝ
  | .pi => Real.pi
  | .e => Real.exp 1

/-- The named constants are the real ones. -/
@[simp] theorem Constant.value_exact (c : Constant) : (c.value : Exact) = .real c.real := by
  cases c <;> rfl

namespace Elementary

/-- The function over the reals, extended by arbitrary values outside its
domain, as analysis has it. -/
noncomputable def real : Elementary → ℝ → ℝ
  | sin => Real.sin
  | cos => Real.cos
  | tan => Real.tan
  | arcsin => Real.arcsin
  | arccos => Real.arccos
  | arctan => Real.arctan
  | exp => Real.exp
  | log => Real.log
  | sqrt => Real.sqrt

/-- The real domain of the function.  Outside of it the exact value is nothing. -/
def Defined : Elementary → ℝ → Prop
  | log, a => 0 < a
  | sqrt, a => 0 ≤ a
  | tan, a => Real.cos a ≠ 0
  | arcsin, a | arccos, a => -1 ≤ a ∧ a ≤ 1
  | _, _ => True

/-- A function has a value exactly if its argument lies in the real domain,
and the value is the real one. -/
@[simp] theorem value_eq_real {f : Elementary} {u : Exact} {y : ℝ} :
    f.value u = .real y ↔ ∃ a, u = .real a ∧ f.Defined a ∧ f.real a = y := by
  cases f <;> refine Exact.lift_eq_real.trans ?_ <;> simp [Defined, real]

end Elementary

/-! ### Laws of exponents -/

namespace PowerDefined

variable {a b c : ℝ}

theorem of_pos (positive : 0 < a) (b : ℝ) : PowerDefined a b := .inl positive

/-- Whole powers from zero up are defined for every base. -/
theorem of_natCast (a : ℝ) (n : ℕ) : PowerDefined a n := by
  rcases lt_trichotomy a 0 with negative | zero | positive
  · exact .inr (.inr ⟨negative, n, by simp⟩)
  · exact .inr (.inl ⟨zero, by positivity⟩)
  · exact .inl positive

theorem of_intCast (nonzero : a ≠ 0) (n : ℤ) : PowerDefined a n := by
  rcases lt_or_gt_of_ne nonzero with negative | positive
  · exact .inr (.inr ⟨negative, n, rfl⟩)
  · exact .inl positive

/-- The power with exponent zero is defined for every base, zero included. -/
theorem zero_right (a : ℝ) : PowerDefined a 0 := by
  simpa using of_natCast a 0

theorem one_right (a : ℝ) : PowerDefined a 1 := by
  simpa using of_natCast a 1

/-- At the base zero exactly the exponents that are not negative remain. -/
theorem zero_left_iff : PowerDefined 0 b ↔ 0 ≤ b := by
  simp [PowerDefined]

/-- Where two powers of a base are defined, the power with the sum of the
exponents is. -/
theorem add (first : PowerDefined a b) (second : PowerDefined a c) : PowerDefined a (b + c) := by
  rcases first with positive | ⟨zero, hb⟩ | ⟨negative, m, rfl⟩
  · exact .inl positive
  · subst zero
    exact zero_left_iff.2 (add_nonneg hb (zero_left_iff.1 second))
  · rcases second with positive | ⟨zero, -⟩ | ⟨-, n, rfl⟩
    · exact absurd positive negative.le.not_gt
    · exact absurd zero negative.ne
    · exact .inr (.inr ⟨negative, m + n, by push_cast; ring⟩)

/-- The law `a ^ (b + c) = a ^ b * a ^ c`, wherever both powers on the right
exist.  The left side may exist at more places. -/
theorem rpow_add (first : PowerDefined a b) (second : PowerDefined a c) :
    a ^ (b + c) = a ^ b * a ^ c := by
  rcases first with positive | ⟨zero, hb⟩ | ⟨negative, m, rfl⟩
  · exact Real.rpow_add positive b c
  · subst zero
    exact Real.rpow_add_of_nonneg le_rfl hb (zero_left_iff.1 second)
  · rcases second with positive | ⟨zero, -⟩ | ⟨-, n, rfl⟩
    · exact absurd positive negative.le.not_gt
    · exact absurd zero negative.ne
    · rw [← Int.cast_add, Real.rpow_intCast, Real.rpow_intCast, Real.rpow_intCast,
        zpow_add₀ negative.ne]

/-- Where two powers of a base are defined, the power with the difference of
the exponents is, if the divisor is not zero. -/
theorem sub (first : PowerDefined a b) (second : PowerDefined a c) (nonzero : a ^ c ≠ 0) :
    PowerDefined a (b - c) := by
  rcases first with positive | ⟨zero, hb⟩ | ⟨negative, m, rfl⟩
  · exact .inl positive
  · subst zero
    -- at the base zero only the exponent zero leaves a divisor other than zero
    have exponent : c = 0 := by
      by_contra hc
      exact nonzero (Real.zero_rpow hc)
    simpa [exponent] using zero_left_iff.2 hb
  · rcases second with positive | ⟨zero, -⟩ | ⟨-, n, rfl⟩
    · exact absurd positive negative.le.not_gt
    · exact absurd zero negative.ne
    · exact .inr (.inr ⟨negative, m - n, by push_cast; ring⟩)

/-- The law `a ^ (b - c) = a ^ b / a ^ c`, wherever the quotient on the
right exists. -/
theorem rpow_sub (first : PowerDefined a b) (second : PowerDefined a c) (nonzero : a ^ c ≠ 0) :
    a ^ (b - c) = a ^ b / a ^ c := by
  rw [eq_div_iff nonzero, ← rpow_add (first.sub second nonzero) second, sub_add_cancel]

/-- A whole power of a power can be written with the product of the exponents.
For other outer exponents a negative base would be lost. -/
theorem mul {n : ℤ} (inner : PowerDefined a b) (outer : PowerDefined (a ^ b) n) :
    PowerDefined a (b * n) := by
  rcases inner with positive | ⟨zero, hb⟩ | ⟨negative, m, rfl⟩
  · exact .inl positive
  · subst zero
    rcases hb.eq_or_lt with rfl | positive
    · simpa using zero_right 0
    · rw [Real.zero_rpow positive.ne'] at outer
      exact zero_left_iff.2 (mul_nonneg positive.le (zero_left_iff.1 outer))
  · exact .inr (.inr ⟨negative, m * n, by push_cast; ring⟩)

/-- The law `a ^ (b * n) = (a ^ b) ^ n` for whole `n`, wherever the power on
the right exists. -/
theorem rpow_mul {n : ℤ} (inner : PowerDefined a b) : a ^ (b * n) = (a ^ b) ^ (n : ℝ) := by
  rcases inner with positive | ⟨zero, hb⟩ | ⟨negative, m, rfl⟩
  · exact Real.rpow_mul positive.le b n
  · subst zero
    exact Real.rpow_mul le_rfl b n
  · rw [← Int.cast_mul, Real.rpow_intCast, Real.rpow_intCast, Real.rpow_intCast, zpow_mul]

end PowerDefined

end Fluxion
