import Mathlib
import Fluxion.Decimal.Rounded
import Fluxion.Proofs.Signs

/-!
# Rounding to machine numbers

Around each machine number lies the interval of what rounds to it, halfway to either neighbour
(`Decimal.Binary.Near`).  Products and quotients of finite numbers are rounded from their exact
values: where such a value lies near a machine number, that number is the result (`mul_eq_of_near`,
`div_eq_of_near`).

On the way to a result a quotient is known by its whole part and two bits about the rest.  Halving
keeps track of the rest (`quotientMantissa_shiftRight`), so rounding those bits is rounding the
quotient itself (`roundedMantissa_quotientMantissa`).
-/

namespace Fluxion

open Float.Model (UnpackedFloat Format totalExponent)
open Float.Model.UnpackedFloat (Sign Accuracy ExtendedMantissa accuracyOfFraction shiftToExponent
  shiftToTargetExponent roundWithAccuracy)

namespace Decimal

/-- A power with an exponent of either sign, next to powers without. -/
theorem zpow_mul_pow_toNat {a : ℚ} (nonzero : a ≠ 0) (e : ℤ) :
    a ^ e * a ^ (-e).toNat = a ^ e.toNat := by
  rw [← zpow_natCast, ← zpow_natCast, ← zpow_add₀ nonzero]
  congr 1
  omega

/-! ### The nearest whole number -/

section NearestEven

variable {p q n : ℕ} (positive : 0 < q)

include positive

/-- A whole number within half a unit is the nearest one, ties going to
the even one. -/
theorem nearestEven_eq (low : 2 * (n * q) ≤ 2 * p + q) (high : 2 * p ≤ 2 * (n * q) + q)
    (odd : n % 2 = 1 → 2 * (n * q) < 2 * p + q ∧ 2 * p < 2 * (n * q) + q) :
    nearestEven p q = n := by
  have parts := Nat.div_add_mod p q
  have rest_lt := Nat.mod_lt p positive
  rw [nearestEven]
  generalize p / q = whole, p % q = rest at *
  -- the nearest whole number is the whole part or the next one
  obtain rfl | rfl : n = whole ∨ n = whole + 1 := by
    have below : n ≤ whole + 1 := by
      by_contra above
      have := Nat.mul_le_mul_right q (show whole + 2 ≤ n by omega)
      nlinarith
    have above : whole ≤ n := by
      by_contra below
      have := Nat.mul_le_mul_right q (show n + 1 ≤ whole by omega)
      nlinarith
    omega
  · have smaller : 2 * rest ≤ q := by nlinarith
    obtain less | half := smaller.lt_or_eq
    · rw [Nat.compare_eq_lt.2 less]
    · have even : n % 2 = 0 := by
        by_contra one
        have := odd (by omega)
        nlinarith
      rw [Nat.compare_eq_eq.2 half]
      exact if_pos even
  · have larger : q ≤ 2 * rest := by nlinarith
    obtain less | half := larger.lt_or_eq
    · rw [Nat.compare_eq_gt.2 less]
    · have even : (whole + 1) % 2 = 0 := by
        by_contra one
        have := odd (by omega)
        nlinarith
      rw [Nat.compare_eq_eq.2 half.symm]
      exact if_neg (by omega)

/-- The same over the rationals, where bounds are easier to give. -/
theorem nearestEven_eq_of_near (low : (n : ℚ) - 1 / 2 ≤ (p : ℚ) / q)
    (high : (p : ℚ) / q ≤ n + 1 / 2)
    (odd : n % 2 = 1 → (n : ℚ) - 1 / 2 < (p : ℚ) / q ∧ (p : ℚ) / q < n + 1 / 2) :
    nearestEven p q = n := by
  have positive' : (0 : ℚ) < q := by exact_mod_cast positive
  have twice : 2 * ((p : ℚ) / q) * q = 2 * p := by field_simp
  apply nearestEven_eq positive
  · have scaled : (2 * (n * q) : ℚ) ≤ 2 * p + q := by
      rw [← twice]
      nlinarith
    exact_mod_cast scaled
  · have scaled : (2 * p : ℚ) ≤ 2 * (n * q) + q := by
      rw [← twice]
      nlinarith
    exact_mod_cast scaled
  · intro one
    obtain ⟨low, high⟩ := odd one
    have below : (2 * (n * q) : ℚ) < 2 * p + q := by
      rw [← twice]
      nlinarith
    have above : (2 * p : ℚ) < 2 * (n * q) + q := by
      rw [← twice]
      nlinarith
    exact ⟨by exact_mod_cast below, by exact_mod_cast above⟩

end NearestEven

/-! ### What rounds to a number -/

namespace Binary

variable {value : Binary} {x : ℚ}

/-- The form of machine numbers: the significand has 53 bits, and the first of
them is set unless the number is among the smallest. -/
structure Canonical (value : Binary) : Prop where
  short : value.significand < 2 ^ 53
  least_le : leastExponent ≤ value.exponent
  full : value.exponent = leastExponent ∨ 2 ^ 52 ≤ value.significand

/-- The lower end of the interval of what rounds to the number. -/
def low (value : Binary) : ℚ := value.interval.1 * 2 ^ (value.exponent - 2)

/-- The upper end of the interval of what rounds to the number. -/
def high (value : Binary) : ℚ := value.interval.2 * 2 ^ (value.exponent - 2)

/-- In the interval of what rounds to the number.  Its ends belong to
the even ones. -/
structure Near (value : Binary) (x : ℚ) : Prop where
  low_le : value.low ≤ x
  le_high : x ≤ value.high
  of_odd : value.significand % 2 = 1 → value.low < x ∧ x < value.high

/-- Below a power of two the spacing is half as wide, so the interval of what
rounds to the power is shorter to that side. -/
def Narrow (value : Binary) : Prop :=
  value.significand = 2 ^ 52 ∧ leastExponent < value.exponent

theorem two_zpow_sub_two (e : ℤ) : (2 : ℚ) ^ (e - 2) = 2 ^ e / 4 := by
  rw [zpow_sub₀ two_ne_zero]
  norm_num

/-- The upper end of the interval around a magnitude is half a unit above it. -/
theorem high_eq : value.high = (value.significand + 1 / 2) * 2 ^ value.exponent := by
  rw [high, interval, two_zpow_sub_two]
  push_cast
  ring

/-- The lower end is half a unit below, unless the unit changes there. -/
theorem low_eq (nonzero : value.significand ≠ 0) (wide : ¬value.Narrow) :
    value.low = (value.significand - 1 / 2) * 2 ^ value.exponent := by
  rw [low, interval, two_zpow_sub_two]
  simp only [if_neg (show ¬(value.significand = twoTo 52 ∧ leastExponent < value.exponent) from wide)]
  rw [Nat.cast_sub (by omega)]
  push_cast
  ring

/-- Where the unit changes, the lower end is a quarter of a unit below. -/
theorem low_eq_of_narrow (narrow : value.Narrow) :
    value.low = (2 ^ 52 - 1 / 4) * 2 ^ value.exponent := by
  rw [low, interval, two_zpow_sub_two]
  simp only [if_pos (show value.significand = twoTo 52 ∧ leastExponent < value.exponent from narrow)]
  rw [narrow.1]
  norm_num
  ring

theorem half_le_low (nonzero : value.significand ≠ 0) :
    (value.significand - 1 / 2) * 2 ^ value.exponent ≤ value.low := by
  by_cases narrow : value.Narrow
  · rw [low_eq_of_narrow narrow, narrow.1]
    refine mul_le_mul_of_nonneg_right ?_ (by positivity)
    norm_num
  · exact (low_eq nonzero narrow).ge

/-- A number rounds to itself. -/
theorem near_self (nonzero : value.significand ≠ 0) :
    value.Near (value.significand * 2 ^ value.exponent) := by
  have positive : (0 : ℚ) < 2 ^ value.exponent := by positivity
  have low : value.low < value.significand * 2 ^ value.exponent := by
    by_cases narrow : value.Narrow
    · rw [low_eq_of_narrow narrow, narrow.1]
      push_cast
      linarith
    · rw [low_eq nonzero narrow]
      linarith
  have high : value.significand * 2 ^ value.exponent < value.high := by
    rw [high_eq]
    linarith
  exact ⟨low.le, high.le, fun _ => ⟨low, high⟩⟩

/-- What is near to a magnitude is below the next power of two. -/
theorem Near.lt (near : value.Near x) (canonical : value.Canonical) :
    x < 2 ^ (value.exponent + 53) := by
  have short : (value.significand : ℚ) + 1 ≤ 2 ^ 53 := by exact_mod_cast canonical.short
  calc x ≤ (value.significand + 1 / 2) * 2 ^ value.exponent := high_eq ▸ near.le_high
    _ < 2 ^ 53 * 2 ^ value.exponent := by gcongr; linarith
    _ = 2 ^ (value.exponent + 53) := by rw [zpow_add₀ two_ne_zero]; norm_num; ring

/-- A number that is not among the smallest has a leading one, which what
rounds to it has as well or just misses. -/
theorem Near.gt (near : value.Near x) (canonical : value.Canonical)
    (ordinary : leastExponent < value.exponent) : 2 ^ (value.exponent + 51) < x := by
  have full : 2 ^ 52 ≤ value.significand := canonical.full.resolve_left ordinary.ne'
  have full' : (2 ^ 52 : ℚ) ≤ value.significand := by exact_mod_cast full
  have scaled : (2 : ℚ) ^ (value.exponent + 51) = 2 ^ 51 * 2 ^ value.exponent := by
    rw [zpow_add₀ two_ne_zero]
    norm_num
    ring
  rw [scaled]
  refine lt_of_lt_of_le ?_ near.low_le
  by_cases narrow : value.Narrow
  · rw [low_eq_of_narrow narrow]
    gcongr
    norm_num
  · rw [low_eq (by omega) narrow]
    gcongr
    linarith

/-- Below the least significand of its exponent only a magnitude with a narrow
interval is near. -/
theorem Near.narrow_of_lt (near : value.Near x) (canonical : value.Canonical)
    (ordinary : leastExponent < value.exponent) (less : x < 2 ^ 52 * 2 ^ value.exponent) :
    value.Narrow := by
  by_contra wide
  have full : 2 ^ 52 ≤ value.significand := canonical.full.resolve_left ordinary.ne'
  have more : 2 ^ 52 + 1 ≤ value.significand :=
    Nat.lt_of_le_of_ne full fun same => wide ⟨same.symm, ordinary⟩
  have more' : (2 ^ 52 + 1 : ℚ) ≤ value.significand := by exact_mod_cast more
  refine less.not_ge (le_trans ?_ near.low_le)
  rw [low_eq (by omega) wide]
  gcongr
  linarith

end Binary

end Decimal

namespace Binary64

/-! ### Quotients and what is left of them -/

/-- The whole part of a quotient with two bits about the rest: whether it is
at least a half, and whether there is something besides that. -/
def quotientMantissa (p q : ℕ) : ExtendedMantissa where
  mantissa := p / q
  roundBit := decide (q ≤ 2 * (p % q))
  stickyBit := decide (p % q ≠ 0 ∧ 2 * (p % q) ≠ q)

section Quotients

variable {p q : ℕ}

theorem ofMantissaAndAccuracy_exact (p : ℕ) :
    ExtendedMantissa.ofMantissaAndAccuracy p .exact = quotientMantissa p 1 := by
  simp [quotientMantissa, ExtendedMantissa.ofMantissaAndAccuracy, Nat.mod_one]

/-- Below half, the bits behind the mantissa say less than half. -/
theorem quotientMantissa_of_lt (less : 2 * (p % q) < q) :
    quotientMantissa p q = ⟨p / q, false, decide (p % q ≠ 0)⟩ := by
  rw [quotientMantissa, decide_eq_false less.not_ge]
  simp [less.ne]

/-- At half, the bits behind the mantissa say exactly half. -/
theorem quotientMantissa_of_eq (half : 2 * (p % q) = q) :
    quotientMantissa p q = ⟨p / q, true, false⟩ := by
  rw [quotientMantissa, decide_eq_true half.ge]
  simp [half]

/-- Above half, the bits behind the mantissa say more than half. -/
theorem quotientMantissa_of_gt (more : q < 2 * (p % q)) :
    quotientMantissa p q = ⟨p / q, true, true⟩ := by
  have nonzero : p % q ≠ 0 := by omega
  rw [quotientMantissa, decide_eq_true more.le]
  simp [more.ne', nonzero]

/-- Rounding the mantissa of a quotient is taking the nearest whole number,
ties to even. -/
theorem roundedMantissa_quotientMantissa :
    (quotientMantissa p q).roundedMantissa = Decimal.nearestEven p q := by
  rw [Decimal.nearestEven]
  obtain less | half | more := lt_trichotomy (2 * (p % q)) q
  · rw [Nat.compare_eq_lt.2 less, quotientMantissa_of_lt less]
    cases decide (p % q ≠ 0) <;> rfl
  · rw [Nat.compare_eq_eq.2 half, quotientMantissa_of_eq half]
    change p / q + p / q % 2 = if p / q % 2 = 0 then p / q else p / q + 1
    split <;> omega
  · rw [Nat.compare_eq_gt.2 more, quotientMantissa_of_gt more]
    rfl

variable (positive : 0 < q)

include positive

theorem ofMantissaAndAccuracy_accuracyOfFraction :
    ExtendedMantissa.ofMantissaAndAccuracy (p / q) (accuracyOfFraction (p % q) q) =
      quotientMantissa p q := by
  rw [accuracyOfFraction]
  split
  · next zero =>
    rw [quotientMantissa_of_lt (by omega), decide_eq_false (not_not_intro zero)]
    rfl
  · next nonzero =>
    obtain less | half | more := lt_trichotomy (2 * (p % q)) q
    · rw [Nat.compare_eq_lt.2 less, quotientMantissa_of_lt less, decide_eq_true nonzero]
      rfl
    · rw [Nat.compare_eq_eq.2 half, quotientMantissa_of_eq half]
      rfl
    · rw [Nat.compare_eq_gt.2 more, quotientMantissa_of_gt more]
      rfl

theorem quotientMantissa_shiftRightOne :
    (quotientMantissa p q).shiftRightOne = quotientMantissa p (q * 2) := by
  have rest_lt := Nat.mod_lt p positive
  have rest : p % (q * 2) = p % q + q * (p / q % 2) := Nat.mod_mul
  have last := Nat.mod_two_eq_zero_or_one (p / q)
  have half : (p / q % 2 != 0) = decide (q * 2 ≤ 2 * (p % (q * 2))) := by
    rw [Bool.eq_iff_iff, bne_iff_ne, decide_eq_true_iff, rest]
    obtain even | odd := last
    · rw [even]
      omega
    · rw [odd]
      omega
  have more : (decide (q ≤ 2 * (p % q)) || decide (p % q ≠ 0 ∧ 2 * (p % q) ≠ q)) =
      decide (p % (q * 2) ≠ 0 ∧ 2 * (p % (q * 2)) ≠ q * 2) := by
    rw [← Bool.decide_or, decide_eq_decide, rest]
    obtain even | odd := last
    · rw [even]
      omega
    · rw [odd]
      omega
  simp only [quotientMantissa, ExtendedMantissa.shiftRightOne, Nat.div_div_eq_div_mul, half, more]

/-- Shifting the mantissa of a quotient to the right is dividing once more,
and the bits behind it lose nothing. -/
theorem quotientMantissa_shiftRight (count : ℕ) :
    quotientMantissa p q >>> count = quotientMantissa p (q * 2 ^ count) := by
  change count.repeat ExtendedMantissa.shiftRightOne (quotientMantissa p q) = _
  induction count with
  | zero => rw [Nat.repeat, pow_zero, mul_one]
  | succ count ih =>
    rw [Nat.repeat, ih, quotientMantissa_shiftRightOne (by positivity), mul_assoc, ← pow_succ]

end Quotients

/-! ### Rounding -/

section Rounding

open Decimal (Binary leastExponent)

variable {value : Binary} {p q : ℕ} {e t : ℤ}

/-- The exponent that is rounded to is that of full width, or the smallest one. -/
theorem targetExponent_eq (m : ℕ) (e : ℤ) :
    Format.binary64.targetExponent (totalExponent m e) = max (m.log2 + e - 52) leastExponent := by
  change max ((m.log2 : ℤ) + 1 + e - 53) (-1074) = max (m.log2 + e - 52) (-1074)
  congr 1
  omega

/-- What has full width or the smallest exponent is never shifted to the left. -/
theorem le_targetExponent (fine : 2 ^ 52 ≤ p / q ∨ e ≤ leastExponent) :
    e ≤ Format.binary64.targetExponent (totalExponent (p / q) e) := by
  rw [targetExponent_eq]
  obtain large | small := fine
  · have := (Nat.le_log2 (by omega)).2 large
    omega
  · exact le_max_of_le_right small

theorem div_lt_whole_add_one (positive : 0 < q) : (p : ℚ) / q < ↑(p / q) + 1 := by
  rw [div_lt_iff₀ (by exact_mod_cast positive)]
  exact_mod_cast Nat.lt_mul_of_div_lt (Nat.lt_succ_self (p / q)) positive

/-- A quotient with a whole part lies between the powers of two around that. -/
theorem zpow_log2_bounds (positive : 0 < q) (nonzero : p / q ≠ 0) (e : ℤ) :
    (2 : ℚ) ^ ((p / q).log2 + e) ≤ (p : ℚ) / q * 2 ^ e ∧
      (p : ℚ) / q * 2 ^ e < 2 ^ ((p / q).log2 + e + 1) := by
  have low : ((2 ^ (p / q).log2 : ℕ) : ℚ) ≤ ↑(p / q) := by
    exact_mod_cast Nat.log2_self_le nonzero
  have high : ((p / q : ℕ) : ℚ) + 1 ≤ (2 ^ ((p / q).log2 + 1) : ℕ) := by
    exact_mod_cast Nat.lt_log2_self
  push_cast at low high
  constructor
  · rw [zpow_add₀ two_ne_zero, zpow_natCast]
    gcongr
    exact low.trans Nat.cast_div_le
  · rw [add_right_comm, zpow_add₀ two_ne_zero]
    gcongr
    exact_mod_cast (div_lt_whole_add_one positive).trans_le high

/-- What is near to a machine number is rounded to its exponent, or one below
where the interval is narrow. -/
theorem targetExponent_of_near (positive : 0 < q) (canonical : value.Canonical)
    (fine : 2 ^ 52 ≤ p / q ∨ e ≤ leastExponent) (near : value.Near ((p : ℚ) / q * 2 ^ e)) :
    Format.binary64.targetExponent (totalExponent (p / q) e) = value.exponent ∨
      Format.binary64.targetExponent (totalExponent (p / q) e) = value.exponent - 1 ∧
        value.Narrow ∧ (p : ℚ) / q * 2 ^ e < 2 ^ 52 * 2 ^ value.exponent := by
  have least_le := canonical.least_le
  rw [targetExponent_eq]
  by_cases zero : p / q = 0
  · -- what has no whole part is one of the smallest
    have small : e ≤ leastExponent := fine.resolve_left (by omega)
    have less : (p : ℚ) / q * 2 ^ e < 2 ^ e := by
      have below := div_lt_whole_add_one (p := p) positive
      rw [zero, Nat.cast_zero, zero_add] at below
      exact mul_lt_of_lt_one_left (by positivity) below
    have smallest : value.exponent = leastExponent := by
      by_contra ordinary
      have above := (zpow_lt_zpow_iff_right₀ one_lt_two).1
        ((near.gt canonical (lt_of_le_of_ne least_le (Ne.symm ordinary))).trans less)
      omega
    left
    rw [zero, smallest]
    change max (0 + e - 52) leastExponent = leastExponent
    omega
  · obtain ⟨lower, upper⟩ := zpow_log2_bounds positive zero e
    have below := (zpow_lt_zpow_iff_right₀ one_lt_two).1 (lower.trans_lt (near.lt canonical))
    obtain smallest | ordinary := least_le.eq_or_lt
    · left
      omega
    · have above := (zpow_lt_zpow_iff_right₀ one_lt_two).1
        ((near.gt canonical ordinary).trans upper)
      by_cases same : ((p / q).log2 : ℤ) + e - 52 = value.exponent
      · left
        omega
      · right
        have less : (p : ℚ) / q * 2 ^ e < 2 ^ 52 * 2 ^ value.exponent := by
          have scaled : (2 : ℚ) ^ (((p / q).log2 : ℤ) + e + 1) = 2 ^ 52 * 2 ^ value.exponent := by
            rw [← zpow_natCast, ← zpow_add₀ two_ne_zero]
            congr 1
            omega
          exact scaled ▸ upper
        exact ⟨by omega, near.narrow_of_lt canonical ordinary less, less⟩

/-- Halving the quotient and doubling the unit. -/
theorem div_scaled (le : e ≤ t) :
    (p : ℚ) / (q * 2 ^ (t - e).toNat : ℕ) = (p : ℚ) / q * 2 ^ e / 2 ^ t := by
  have scaled : (2 : ℚ) ^ t = 2 ^ (t - e).toNat * 2 ^ e := by
    rw [← zpow_natCast, ← zpow_add₀ two_ne_zero]
    congr 1
    omega
  rw [scaled]
  push_cast
  field_simp

theorem eq_div_of_accurate {m : ℕ} {accuracy : Accuracy}
    (accurate : .ofMantissaAndAccuracy m accuracy = quotientMantissa p q) : m = p / q := by
  have same := congrArg ExtendedMantissa.mantissa accurate
  rcases accuracy with _ | _ | _ | _ <;> exact same

/-- Shifting to the exponent keeps the quotient, with a larger divisor. -/
theorem shiftToTargetExponent_eq {m : ℕ} {accuracy : Accuracy} (positive : 0 < q)
    (accurate : .ofMantissaAndAccuracy m accuracy = quotientMantissa p q)
    (target : Format.binary64.targetExponent (totalExponent m e) = t) (le : e ≤ t) :
    shiftToTargetExponent .binary64 m e accuracy =
      (quotientMantissa p (q * 2 ^ (t - e).toNat), t) := by
  rw [shiftToTargetExponent, target, shiftToExponent, accurate]
  simp only [quotientMantissa_shiftRight positive]
  congr 1
  omega

/-- Rounded to the exponent of a machine number that it is near to, a quotient
gives its significand. -/
theorem nearestEven_of_near (nonzero : value.significand ≠ 0) (positive : 0 < q)
    (near : value.Near ((p : ℚ) / q * 2 ^ e)) (le : e ≤ value.exponent) :
    Decimal.nearestEven p (q * 2 ^ (value.exponent - e).toNat) = value.significand := by
  have half := value.half_le_low nonzero
  have high := value.high_eq
  refine Decimal.nearestEven_eq_of_near (by positivity) ?_ ?_ fun odd => ⟨?_, ?_⟩
  all_goals rw [div_scaled le]
  · rw [le_div_iff₀ (by positivity)]
    exact half.trans near.low_le
  · rw [div_le_iff₀ (by positivity), ← high]
    exact near.le_high
  · rw [lt_div_iff₀ (by positivity)]
    exact half.trans_lt (near.of_odd odd).1
  · rw [div_lt_iff₀ (by positivity), ← high]
    exact (near.of_odd odd).2

/-- Rounded one exponent below, it gives the least significand doubled. -/
theorem nearestEven_of_narrow (positive : 0 < q) (narrow : value.Narrow)
    (near : value.Near ((p : ℚ) / q * 2 ^ e))
    (less : (p : ℚ) / q * 2 ^ e < 2 ^ 52 * 2 ^ value.exponent) (le : e ≤ value.exponent - 1) :
    Decimal.nearestEven p (q * 2 ^ (value.exponent - 1 - e).toNat) = 2 ^ 53 := by
  have low := near.low_le
  have halved : (2 : ℚ) ^ (value.exponent - 1) = 2 ^ value.exponent / 2 := by
    rw [zpow_sub₀ two_ne_zero, zpow_one]
  rw [Binary.low_eq_of_narrow narrow] at low
  refine Decimal.nearestEven_eq_of_near (by positivity) ?_ ?_ fun odd => by norm_num at odd
  all_goals rw [div_scaled le, halved]
  · rw [le_div_iff₀ (by positivity)]
    push_cast
    linarith
  · rw [div_le_iff₀ (by positivity)]
    push_cast
    have positive' : (0 : ℚ) < 2 ^ value.exponent := by positivity
    linarith

/-- Rounding is shifting, rounding the mantissa, and shifting the result once more. -/
theorem roundWithAccuracy_of_shifts {m r s : ℕ} {e₁ e₂ : ℤ} {accuracy : Accuracy}
    {first second : ExtendedMantissa}
    (one : shiftToTargetExponent .binary64 m e accuracy = (first, e₁))
    (rounded : first.roundedMantissa = r)
    (other : shiftToTargetExponent .binary64 r e₁ .exact = (second, e₂))
    (same : second.mantissa = s) (positive : 0 < s) (sign : Sign) :
    roundWithAccuracy .binary64 sign m e accuracy = .finite sign s e₂ positive := by
  subst rounded same
  rw [roundWithAccuracy, one]
  simp only [other]
  exact dif_neg positive.ne'

/-- A significand that is short enough stays as it is. -/
theorem shiftToTargetExponent_of_canonical (canonical : value.Canonical)
    (nonzero : value.significand ≠ 0) :
    shiftToTargetExponent .binary64 value.significand value.exponent .exact =
      (quotientMantissa value.significand 1, value.exponent) := by
  have short := (Nat.log2_lt nonzero).2 canonical.short
  have least_le := canonical.least_le
  have stays : (Format.binary64.targetExponent
      (totalExponent value.significand value.exponent) - value.exponent).toNat = 0 := by
    rw [targetExponent_eq]
    omega
  rw [shiftToTargetExponent, shiftToExponent, stays, ofMantissaAndAccuracy_exact]
  simp only [quotientMantissa_shiftRight Nat.one_pos]
  norm_num

/-- A significand that is one bit too long gets a larger exponent. -/
theorem shiftToTargetExponent_of_carry (le : leastExponent < t) :
    shiftToTargetExponent .binary64 (2 ^ 53) (t - 1) .exact = (quotientMantissa (2 ^ 53) 2, t) := by
  have target : Format.binary64.targetExponent (totalExponent (2 ^ 53) (t - 1)) = t := by
    rw [targetExponent_eq, Nat.log2_two_pow]
    omega
  rw [shiftToTargetExponent_eq Nat.one_pos (ofMantissaAndAccuracy_exact _) target (by omega),
    sub_sub_cancel]
  rfl

/-- Where the exact value of a result lies near a number, the result is
that number. -/
theorem roundWithAccuracy_eq_of_near {m : ℕ} {accuracy : Accuracy} (canonical : value.Canonical)
    (nonzero : value.significand ≠ 0) (positive : 0 < q)
    (accurate : .ofMantissaAndAccuracy m accuracy = quotientMantissa p q)
    (fine : 2 ^ 52 ≤ m ∨ e ≤ leastExponent) (near : value.Near ((p : ℚ) / q * 2 ^ e))
    (sign : Sign) :
    roundWithAccuracy .binary64 sign m e accuracy =
      .finite sign value.significand value.exponent (Nat.pos_of_ne_zero nonzero) := by
  obtain rfl := eq_div_of_accurate accurate
  have le := le_targetExponent fine
  obtain same | ⟨below, narrow, less⟩ := targetExponent_of_near positive canonical fine near
  · rw [same] at le
    have rounded := nearestEven_of_near nonzero positive near le
    rw [← roundedMantissa_quotientMantissa] at rounded
    exact roundWithAccuracy_of_shifts (shiftToTargetExponent_eq positive accurate same le) rounded
      (shiftToTargetExponent_of_canonical canonical nonzero) (Nat.div_one _) _ sign
  · -- what lies just below a power of two is rounded up to it
    rw [below] at le
    have rounded := nearestEven_of_narrow positive narrow near less le
    rw [← roundedMantissa_quotientMantissa] at rounded
    exact roundWithAccuracy_of_shifts (shiftToTargetExponent_eq positive accurate below le) rounded
      (shiftToTargetExponent_of_carry narrow.2) narrow.1.symm _ sign

/-! ### Products and quotients -/

variable {m₁ m₂ : ℕ} {e₁ e₂ : ℤ} (positive₁ : 0 < m₁) (positive₂ : 0 < m₂)

/-- The product of two numbers is the machine number that the exact
product is near to. -/
theorem mul_eq_of_near (canonical : value.Canonical) (nonzero : value.significand ≠ 0)
    (fine : 2 ^ 52 ≤ m₁ * m₂) (near : value.Near (m₁ * 2 ^ e₁ * (m₂ * 2 ^ e₂))) (s₁ s₂ : Sign) :
    UnpackedFloat.mul .binary64 (.finite s₁ m₁ e₁ positive₁) (.finite s₂ m₂ e₂ positive₂) =
      .finite (s₁ * s₂) value.significand value.exponent (Nat.pos_of_ne_zero nonzero) := by
  have exact_value : ((m₁ * m₂ : ℕ) : ℚ) / (1 : ℕ) * 2 ^ (e₁ + e₂) =
      m₁ * 2 ^ e₁ * (m₂ * 2 ^ e₂) := by
    rw [zpow_add₀ two_ne_zero]
    push_cast
    ring
  exact roundWithAccuracy_eq_of_near canonical nonzero Nat.one_pos
    (ofMantissaAndAccuracy_exact (m₁ * m₂)) (.inl fine) (exact_value ▸ near) (s₁ * s₂)

/-- The exponent of a quotient before it is rounded: small enough for
all bits of a result. -/
def quotientExponent (m₁ : ℕ) (e₁ : ℤ) (m₂ : ℕ) (e₂ : ℤ) : ℤ :=
  min (e₁ - e₂) (Format.binary64.targetExponent (totalExponent m₁ e₁ - totalExponent m₂ e₂))

include positive₁ positive₂ in
/-- A quotient is formed with full width or at the smallest exponent, so that
rounding it loses nothing twice. -/
theorem quotientExponent_fine :
    2 ^ 52 ≤ (m₁ <<< (e₁ - e₂ - quotientExponent m₁ e₁ m₂ e₂).toNat) / m₂ ∨
      quotientExponent m₁ e₁ m₂ e₂ ≤ leastExponent := by
  have chosen : quotientExponent m₁ e₁ m₂ e₂ =
      min (e₁ - e₂) (max (m₁.log2 + 1 + e₁ - (m₂.log2 + 1 + e₂) - 53) leastExponent) := rfl
  by_cases small : quotientExponent m₁ e₁ m₂ e₂ ≤ leastExponent
  · exact .inr small
  · left
    have shift : m₂.log2 + 1 + 52 ≤
        m₁.log2 + (e₁ - e₂ - quotientExponent m₁ e₁ m₂ e₂).toNat := by omega
    rw [Nat.le_div_iff_mul_le positive₂, Nat.shiftLeft_eq]
    calc 2 ^ 52 * m₂ ≤ 2 ^ 52 * 2 ^ (m₂.log2 + 1) := by gcongr; exact Nat.lt_log2_self.le
      _ = 2 ^ (m₂.log2 + 1 + 52) := by rw [← pow_add, add_comm]
      _ ≤ 2 ^ (m₁.log2 + (e₁ - e₂ - quotientExponent m₁ e₁ m₂ e₂).toNat) := by gcongr; omega
      _ = 2 ^ m₁.log2 * 2 ^ (e₁ - e₂ - quotientExponent m₁ e₁ m₂ e₂).toNat := pow_add ..
      _ ≤ m₁ * 2 ^ (e₁ - e₂ - quotientExponent m₁ e₁ m₂ e₂).toNat := by
        gcongr
        exact Nat.log2_self_le positive₁.ne'

/-- The quotient of two numbers is the machine number that the exact
quotient is near to. -/
theorem div_eq_of_near (canonical : value.Canonical) (nonzero : value.significand ≠ 0)
    (near : value.Near (m₁ * 2 ^ e₁ / (m₂ * 2 ^ e₂))) (s₁ s₂ : Sign) :
    UnpackedFloat.div .binary64 (.finite s₁ m₁ e₁ positive₁) (.finite s₂ m₂ e₂ positive₂) =
      .finite (s₁ / s₂) value.significand value.exponent (Nat.pos_of_ne_zero nonzero) := by
  have le : quotientExponent m₁ e₁ m₂ e₂ ≤ e₁ - e₂ := min_le_left _ _
  have exact_value : ((m₁ <<< (e₁ - e₂ - quotientExponent m₁ e₁ m₂ e₂).toNat : ℕ) : ℚ) / m₂ *
      2 ^ quotientExponent m₁ e₁ m₂ e₂ = m₁ * 2 ^ e₁ / (m₂ * 2 ^ e₂) := by
    have scaled : (2 : ℚ) ^ (e₁ - e₂ - quotientExponent m₁ e₁ m₂ e₂).toNat *
        2 ^ quotientExponent m₁ e₁ m₂ e₂ = 2 ^ e₁ / 2 ^ e₂ := by
      rw [← zpow_natCast, ← zpow_add₀ two_ne_zero, ← zpow_sub₀ two_ne_zero]
      congr 1
      omega
    rw [Nat.shiftLeft_eq, Nat.cast_mul, Nat.cast_pow, Nat.cast_two, mul_div_right_comm, mul_assoc,
      scaled, div_mul_div_comm]
  exact roundWithAccuracy_eq_of_near canonical nonzero positive₂
    (ofMantissaAndAccuracy_accuracyOfFraction positive₂)
    (quotientExponent_fine positive₁ positive₂) (exact_value ▸ near) (s₁ / s₂)

end Rounding

end Binary64

end Fluxion
