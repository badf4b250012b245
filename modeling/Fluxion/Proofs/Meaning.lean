import Fluxion.Expr.Text
import Fluxion.Proofs.Exact

/-!
# Meaning of formulas

What a tree over machine numbers denotes when its constants are read as the real numbers they stand
for and arithmetic is exact, and what its text denotes.

The two differ in one place.  A constant can be written with a minus sign and yet not be negative:
the negative zero.  As the base of a power it is printed like any constant, without parentheses, but
a sign binds weaker than a power, so that `-0^x` says `-(0^x)`.  Text and tree of such a power
disagree where the exponent is zero (`Expr.spoken_pow_ne_meaning`); everywhere else they have the
same value or both have none (`Expr.spoken_eq_meaning`).
-/

namespace Fluxion

open Fluxion.Text (isDigit)

/-- Digits with at most one point between or behind them.  This is what
numbers without a sign are printed as. -/
def IsDecimal (text : List Char) : Prop :=
  ∃ whole, whole ≠ [] ∧ (∀ c ∈ whole, isDigit c = true) ∧
    (text = whole ∨ ∃ fraction, (∀ c ∈ fraction, isDigit c = true) ∧
      text = whole ++ '.' :: fraction)

/-- A decimal begins with a digit. -/
theorem IsDecimal.exists_cons {text : List Char} (h : IsDecimal text) :
    ∃ c rest, text = c :: rest ∧ isDigit c = true := by
  obtain ⟨whole, nonempty, hwhole, form⟩ := h
  obtain ⟨c, others, rfl⟩ := List.exists_cons_of_ne_nil nonempty
  have digit : isDigit c = true := hwhole c List.mem_cons_self
  rcases form with rfl | ⟨fraction, -, rfl⟩
  · exact ⟨c, others, rfl, digit⟩
  · exact ⟨c, others ++ '.' :: fraction, rfl, digit⟩

/-- How the numbers of a carrier are read as real numbers.  Comparisons and
signs are exact, and the text of a finite number is a decimal that reads back
to its magnitude, after a minus sign or not. -/
structure ExactReading (K : Type) [Scalar K] [Numeral K] where
  real : K → ℝ
  real_neg (c : K) : real (-c) = -real c
  real_minusOne : real (Scalar.ofInt (-1)) = -1
  isFinite_neg (c : K) : Scalar.isFinite c = true → Scalar.isFinite (-c) = true
  isNegative_iff (c : K) : Scalar.isFinite c = true → (Scalar.isNegative c = true ↔ real c < 0)
  isMinusOne_iff (c : K) : Scalar.isFinite c = true → (Scalar.isMinusOne c = true ↔ real c = -1)
  ofDigits_nonneg (digits : List Char) : IsDecimal digits → 0 ≤ real (Numeral.ofDigits digits)
  text_eq (c : K) : Scalar.isFinite c = true → ∃ digits, IsDecimal digits ∧
    ((Numeral.text c).toList = digits ∧ real c = real (Numeral.ofDigits digits) ∨
      (Numeral.text c).toList = '-' :: digits ∧ real c = -real (Numeral.ofDigits digits))


namespace Expr

/-- The tree with its constants taken to another carrier.  Names, functions
and shape are kept. -/
def map {K L : Type} (f : K → L) : Expr K → Expr L
  | var name => var name
  | const c => const (f c)
  | named c => named c
  | add u v => add (u.map f) (v.map f)
  | sub u v => sub (u.map f) (v.map f)
  | mul u v => mul (u.map f) (v.map f)
  | div u v => div (u.map f) (v.map f)
  | pow u v => pow (u.map f) (v.map f)
  | call g u => call g (u.map f)

section Carrier

variable {K : Type} [Scalar K] [Numeral K] (reading : ExactReading K)

/-- The value of the tree at a real point of the variable, its constants
read exactly. -/
noncomputable def meaning (e : Expr K) (t : ℝ) : Exact :=
  (e.map fun c => .real (reading.real c)).valueAt variableName (.real t)

section Nodes

variable (u v : Expr K) (t : ℝ)

/-- A constant means the number that is read from it. -/
theorem meaning_const (c : K) : (const c).meaning reading t = .real (reading.real c) := rfl

/-- The meaning of a sum is the sum of the meanings; the other nodes follow. -/
theorem meaning_add : (add u v).meaning reading t = u.meaning reading t + v.meaning reading t :=
  rfl

theorem meaning_sub : (sub u v).meaning reading t = u.meaning reading t - v.meaning reading t :=
  rfl

theorem meaning_mul : (mul u v).meaning reading t = u.meaning reading t * v.meaning reading t :=
  rfl

theorem meaning_div : (div u v).meaning reading t = u.meaning reading t / v.meaning reading t :=
  rfl

theorem meaning_pow :
    (pow u v).meaning reading t = Scalar.pow (u.meaning reading t) (v.meaning reading t) :=
  rfl

theorem meaning_call (f : Elementary) :
    (call f u).meaning reading t = f.value (u.meaning reading t) :=
  rfl

/-- The product with minus one means the opposite, as the reading of
minus one is exact. -/
theorem meaning_neg : (-u).meaning reading t = -u.meaning reading t := by
  rw [neg_def, meaning_mul, meaning_const, reading.real_minusOne, Exact.neg_one_mul]

end Nodes

/-- The only variable is that of formulas, and all constants are finite, so
every part of the tree has a written form. -/
def Printable : Expr K → Prop
  | var name => name = variableName
  | const c => Scalar.isFinite c = true
  | named _ => True
  | add u v | sub u v | mul u v | div u v | pow u v => u.Printable ∧ v.Printable
  | call _ u => u.Printable

/-- A constant that is written with a minus sign and is not negative.  On
machine numbers there is one, the negative zero. -/
def isSignedZero : Expr K → Bool
  | const c => !Scalar.isNegative c && (Numeral.text c).toList.head? == some '-'
  | _ => false

/-- The value that the text of the tree says: a minus sign in front of a base
is a minus sign in front of the power. -/
noncomputable def spoken : Expr K → ℝ → Exact
  | var name, t => if name = variableName then .real t else .undefined
  | const c, _ => .real (reading.real c)
  | named c, _ => c.value
  | add u v, t => u.spoken t + v.spoken t
  | sub u v, t => u.spoken t - v.spoken t
  | mul u v, t => u.spoken t * v.spoken t
  | div u v, t => u.spoken t / v.spoken t
  | pow u v, t =>
    if u.isSignedZero then -Scalar.pow (-u.spoken t) (v.spoken t)
    else Scalar.pow (u.spoken t) (v.spoken t)
  | call f u, t => f.value (u.spoken t)

/-- At a point, no exponent of a negative zero is zero.  Elsewhere its power
is zero or nothing, and a sign in front makes no difference. -/
def SignedZerosHarmless (t : ℝ) : Expr K → Prop
  | var _ | const _ | named _ => True
  | add u v | sub u v | mul u v | div u v => u.SignedZerosHarmless t ∧ v.SignedZerosHarmless t
  | pow u v =>
    u.SignedZerosHarmless t ∧ v.SignedZerosHarmless t ∧
      (u.isSignedZero = true → v.meaning reading t ≠ .real 0)
  | call _ u => u.SignedZerosHarmless t

/-- A signed zero is a constant zero that is written as a minus sign and a
decimal zero. -/
theorem exists_const_of_isSignedZero {u : Expr K} (printable : u.Printable)
    (signed : u.isSignedZero = true) :
    ∃ c digits, u = const c ∧ IsDecimal digits ∧ (Numeral.text c).toList = '-' :: digits ∧
      reading.real c = 0 ∧ reading.real (Numeral.ofDigits digits) = 0 := by
  cases u with
  | const c =>
      simp only [isSignedZero, Bool.and_eq_true, Bool.not_eq_true', beq_iff_eq] at signed
      have notNegative : ¬reading.real c < 0 := by
        rw [← reading.isNegative_iff c printable, signed.1]
        exact Bool.false_ne_true
      obtain ⟨digits, decimal, ⟨text, -⟩ | ⟨text, value⟩⟩ := reading.text_eq c printable
      · -- the text of an unsigned number does not start with a sign
        obtain ⟨d, others, front, digit⟩ := decimal.exists_cons
        have minus : d = '-' := by simpa [text, front] using signed.2
        rw [minus] at digit
        exact absurd digit (by decide)
      · have nonneg := reading.ofDigits_nonneg digits decimal
        exact ⟨c, digits, rfl, decimal, text, by linarith, by linarith⟩
  | _ => cases signed

variable {reading}

/-- A power of the negative zero is a sign in front of a power of zero. -/
theorem spoken_pow_of_isSignedZero {u v : Expr K} (printable : u.Printable)
    (signed : u.isSignedZero = true) (t : ℝ) :
    (pow u v).spoken reading t = -Scalar.pow (.real 0) (v.spoken reading t) := by
  obtain ⟨c, digits, rfl, -, -, zero, -⟩ :=
    exists_const_of_isSignedZero reading printable signed
  rw [spoken, if_pos signed, spoken, zero, Exact.neg_real, neg_zero]

/-- Where the exponent is zero the sign does make a difference: the tree means
one and the text minus one. -/
theorem spoken_pow_ne_meaning {u v : Expr K} {t : ℝ} (printable : (pow u v).Printable)
    (signed : u.isSignedZero = true) (text : v.spoken reading t = .real 0)
    (tree : v.meaning reading t = .real 0) :
    (pow u v).spoken reading t = .real (-1) ∧ (pow u v).meaning reading t = .real 1 := by
  have one : Scalar.pow (.real 0) (.real 0) = Exact.real 1 :=
    Exact.pow_eq_real.2 ⟨0, 0, rfl, rfl, PowerDefined.zero_right 0, Real.rpow_zero 0⟩
  constructor
  · rw [spoken_pow_of_isSignedZero printable.1 signed, text, one, Exact.neg_real]
  · obtain ⟨c, digits, rfl, -, -, zero, -⟩ :=
      exists_const_of_isSignedZero reading printable.1 signed
    rw [meaning_pow, meaning_const, zero, tree, one]

/-- Text and tree mean the same wherever no exponent of a negative zero is
zero.  The induction is on the tree; only powers need the condition. -/
theorem spoken_eq_meaning {e : Expr K} {t : ℝ} (printable : e.Printable)
    (harmless : e.SignedZerosHarmless reading t) : e.spoken reading t = e.meaning reading t := by
  induction e with
  | var | const | named => rfl
  | add u v ihu ihv | sub u v ihu ihv | mul u v ihu ihv | div u v ihu ihv =>
      rw [spoken, ihu printable.1 harmless.1, ihv printable.2 harmless.2]
      rfl
  | pow u v ihu ihv =>
      have base := ihu printable.1 harmless.1
      have exponent := ihv printable.2 harmless.2.1
      by_cases signed : u.isSignedZero = true
      · rw [spoken_pow_of_isSignedZero printable.1 signed, exponent,
          Exact.neg_zero_pow (harmless.2.2 signed)]
        obtain ⟨c, digits, rfl, -, -, zero, -⟩ :=
          exists_const_of_isSignedZero reading printable.1 signed
        exact congrArg (Scalar.pow · _) (congrArg Exact.real zero.symm)
      · rw [spoken, if_neg signed, base, exponent]
        rfl
  | call f u ih =>
      rw [spoken, ih printable harmless]
      rfl

end Carrier

end Expr

end Fluxion
