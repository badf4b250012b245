import Fluxion.Proofs.NearestFloat

/-!
# The exact values of machine numbers

A finite machine number stands for one rational number.  A change of sign is exact
(`Decimal.Reading.exact_ofFloat_neg`), and so are comparisons (`Binary64.compare_eq`): the larger
exponent belongs to the larger magnitude, because all but the smallest exponents come with a leading
one.
-/

namespace Fluxion

open Float.Model (UnpackedFloat)
open Decimal (Binary Reading leastExponent)

theorem Decimal.compare_neg_neg (x y : ℚ) : compare (-x) (-y) = (compare x y).swap := by
  obtain less | same | more := lt_trichotomy x y
  · rw [compare_lt_iff_lt.2 less, compare_gt_iff_gt.2 (neg_lt_neg less)]
    rfl
  · rw [compare_eq_iff_eq.2 same, compare_eq_iff_eq.2 (by rw [same])]
    rfl
  · rw [compare_gt_iff_gt.2 more, compare_lt_iff_lt.2 (neg_lt_neg more)]
    rfl

namespace Decimal.Binary

variable {v w : Binary}

/-- The number that sign, significand and exponent stand for. -/
def exact (value : Binary) : ℚ :=
  (if value.negative then -1 else 1) * (value.significand * 2 ^ value.exponent)

section Signs

variable {value : Binary}

/-- A significand of zero stands for zero, whatever sign and exponent are. -/
theorem exact_of_zero (zero : value.significand = 0) : value.exact = 0 := by
  rw [exact, zero, Nat.cast_zero, zero_mul, mul_zero]

theorem exact_of_plus (unsigned : value.negative = false) :
    value.exact = value.significand * 2 ^ value.exponent := by
  rw [exact, unsigned, if_neg Bool.false_ne_true, one_mul]

/-- With a minus sign a number is the opposite of its magnitude. -/
theorem exact_of_minus (signed : value.negative = true) :
    value.exact = -(value.significand * 2 ^ value.exponent) := by
  rw [exact, signed, if_pos rfl, neg_one_mul]

/-- A magnitude is above zero unless its significand is zero. -/
theorem magnitude_pos (positive : 0 < value.significand) :
    (0 : ℚ) < value.significand * 2 ^ value.exponent := by
  have : (0 : ℚ) < value.significand := by exact_mod_cast positive
  positivity

end Signs

/-- Of two magnitudes the one with the larger exponent is larger, since only
the smallest exponent allows short significands. -/
theorem Canonical.lt_of_exponent_lt (canonical : v.Canonical) (other : w.Canonical)
    (less : v.exponent < w.exponent) :
    (v.significand : ℚ) * 2 ^ v.exponent < w.significand * 2 ^ w.exponent := by
  have least_le := canonical.least_le
  have short : (v.significand : ℚ) < 2 ^ 53 := by exact_mod_cast canonical.short
  have full : (2 ^ 52 : ℚ) ≤ w.significand := by
    exact_mod_cast other.full.resolve_left (by omega)
  calc (v.significand : ℚ) * 2 ^ v.exponent < 2 ^ 53 * 2 ^ v.exponent := by gcongr
    _ = 2 ^ 52 * 2 ^ (v.exponent + 1) := by
      rw [zpow_add₀ two_ne_zero, zpow_one]
      ring
    _ ≤ w.significand * 2 ^ w.exponent := by
      gcongr
      · norm_num
      · omega

/-- Magnitudes of the format are compared by their exponents first and by
their significands then.  Both magnitudes must be canonical, or a larger
exponent could belong to the smaller number. -/
theorem Canonical.compare_eq (canonical : v.Canonical) (other : w.Canonical) :
    (compare v.exponent w.exponent).then (compare v.significand w.significand) =
      compare ((v.significand : ℚ) * 2 ^ v.exponent) (w.significand * 2 ^ w.exponent) := by
  obtain less | same | more := lt_trichotomy v.exponent w.exponent
  · rw [compare_lt_iff_lt.2 less, compare_lt_iff_lt.2 (canonical.lt_of_exponent_lt other less)]
    rfl
  · have positive : (0 : ℚ) < 2 ^ w.exponent := by positivity
    rw [same, compare_eq_iff_eq.2 rfl]
    change compare v.significand w.significand = _
    obtain less | same | more := lt_trichotomy v.significand w.significand
    · rw [compare_lt_iff_lt.2 less, compare_lt_iff_lt.2]
      gcongr
    · rw [compare_eq_iff_eq.2 same, compare_eq_iff_eq.2 (by rw [same])]
    · rw [compare_gt_iff_gt.2 more, compare_gt_iff_gt.2]
      exact mul_lt_mul_of_pos_right (by exact_mod_cast more) positive
  · rw [compare_gt_iff_gt.2 more, compare_gt_iff_gt.2 (other.lt_of_exponent_lt canonical more)]
    rfl

end Decimal.Binary

namespace Decimal.Reading

/-- The number that a finite number stands for. -/
def exact : Reading → ℚ
  | finite value => value.exact
  | _ => 0

/-- The reading of the opposite number. -/
def negated : Reading → Reading
  | finite value => finite { value with negative := !value.negative }
  | infinite negative => infinite !negative
  | notANumber => notANumber

/-- Negating a machine number negates what it is read as. -/
theorem ofFloat_neg (c : Float) : ofFloat (-c) = (ofFloat c).negated := by
  rw [ofFloat_eq, ofFloat_eq, Binary64.unpack_neg]
  rcases c.toModel.unpack with (_ | _) | _ | (_ | _) | ⟨_ | _, _, _, _⟩ <;> rfl

/-- Negating a reading negates the number it stands for. -/
theorem exact_negated (reading : Reading) : reading.negated.exact = -reading.exact := by
  cases reading with
  | finite value =>
    rw [negated, exact, exact, Binary.exact, Binary.exact]
    cases value.negative <;> simp
  | infinite | notANumber => exact neg_zero.symm

end Decimal.Reading

namespace Binary64

open Decimal.Binary (exact_of_plus exact_of_minus)

/-- The rational number that a machine number stands for.  What is not finite
stands for zero, so the statements below ask for finite numbers. -/
def exact (c : Float) : ℚ := (Reading.ofFloat c).exact

theorem exact_neg (c : Float) : exact (-c) = -exact c := by
  rw [exact, Reading.ofFloat_neg, Reading.exact_negated]
  rfl

variable {a b : Float}

theorem exists_read (finite : a.isFinite = true) : ∃ value, Reading.ofFloat a = .finite value := by
  rw [Reading.ofFloat_eq]
  change a.toModel.unpack.isFinite = true at finite
  revert finite
  cases a.toModel.unpack <;> intro finite
  · cases finite
  · cases finite
  · exact ⟨_, rfl⟩
  · exact ⟨_, rfl⟩

/-- Finite numbers are compared by their values.  The comparison of fields and
that of rational numbers agree, as both magnitudes are canonical. -/
theorem compare_eq (finite : a.isFinite = true) (other : b.isFinite = true) :
    a.toModel.unpack.compare b.toModel.unpack = some (compare (exact a) (exact b)) := by
  obtain ⟨v, readA⟩ := exists_read finite
  obtain ⟨w, readB⟩ := exists_read other
  have sizes := (Reading.canonical readA).1.compare_eq (Reading.canonical readB).1
  rw [exact, exact, readA, readB, Reading.exact, Reading.exact]
  obtain zeroA | positiveA := v.significand.eq_zero_or_pos
  · rw [Reading.unpack_eq_zero readA zeroA, Binary.exact_of_zero zeroA]
    obtain zeroB | positiveB := w.significand.eq_zero_or_pos
    · rw [Reading.unpack_eq_zero readB zeroB, Binary.exact_of_zero zeroB]
      rfl
    · rw [Reading.unpack_eq readB positiveB]
      have size := Binary.magnitude_pos positiveB
      cases sign : w.negative with
      | false =>
        rw [exact_of_plus sign, compare_lt_iff_lt.2 size]
        rfl
      | true =>
        rw [exact_of_minus sign, compare_gt_iff_gt.2 (neg_neg_of_pos size)]
        rfl
  · rw [Reading.unpack_eq readA positiveA]
    have sizeA := Binary.magnitude_pos positiveA
    obtain zeroB | positiveB := w.significand.eq_zero_or_pos
    · rw [Reading.unpack_eq_zero readB zeroB, Binary.exact_of_zero zeroB]
      cases sign : v.negative with
      | false =>
        rw [exact_of_plus sign, compare_gt_iff_gt.2 sizeA]
        rfl
      | true =>
        rw [exact_of_minus sign, compare_lt_iff_lt.2 (neg_neg_of_pos sizeA)]
        rfl
    · rw [Reading.unpack_eq readB positiveB]
      have sizeB := Binary.magnitude_pos positiveB
      cases signA : v.negative <;> cases signB : w.negative
      case false.false =>
        rw [exact_of_plus signA, exact_of_plus signB, ← sizes]
        rfl
      case false.true =>
        rw [exact_of_plus signA, exact_of_minus signB, compare_gt_iff_gt.2 (by linarith)]
        rfl
      case true.false =>
        rw [exact_of_minus signA, exact_of_plus signB, compare_lt_iff_lt.2 (by linarith)]
        rfl
      case true.true =>
        rw [exact_of_minus signA, exact_of_minus signB, Decimal.compare_neg_neg, ← sizes]
        rfl

/-- The strict order of finite machine numbers is that of the rational numbers
they stand for. -/
theorem lt_iff_exact (finite : a.isFinite = true) (other : b.isFinite = true) :
    a < b ↔ exact a < exact b := by
  rw [lt_iff_compare, compare_eq finite other, Option.some_inj, compare_lt_iff_lt]

/-- Finite machine numbers compare equal exactly if they stand for the same
rational number.  Both zeros do. -/
theorem beq_iff_exact (finite : a.isFinite = true) (other : b.isFinite = true) :
    (a == b) = true ↔ exact a = exact b := by
  rw [beq_iff_compare, compare_eq finite other, Option.some_inj, compare_eq_iff_eq]

theorem exact_ofInt_zero : exact (Float.ofInt 0) = 0 := by
  rw [exact, Reading.ofFloat_eq]
  exact Binary.exact_of_zero rfl

theorem exact_ofInt_minusOne : exact (Float.ofInt (-1)) = -1 := by
  have read : Reading.ofFloat (Float.ofInt (-1)) = .finite ⟨true, 2 ^ 52, -52⟩ := by
    rw [Reading.ofFloat_eq]
    rfl
  rw [exact, read, Reading.exact, Binary.exact_of_minus rfl]
  norm_num

/-- The test for numbers below zero looks at the rational number. -/
theorem isNegative_iff_exact [Platform] (finite : a.isFinite = true) :
    Scalar.isNegative a = true ↔ exact a < 0 := by
  have zero : (Float.ofInt 0).isFinite = true := by decide
  rw [← exact_ofInt_zero, ← lt_iff_exact finite zero]
  exact decide_eq_true_iff

/-- The test for minus one looks at the rational number. -/
theorem isMinusOne_iff_exact [Platform] (finite : a.isFinite = true) :
    Scalar.isMinusOne a = true ↔ exact a = -1 := by
  have minusOne : (Float.ofInt (-1)).isFinite = true := by decide
  rw [← exact_ofInt_minusOne, ← beq_iff_exact finite minusOne]
  rfl

/-- What has no minus sign is not negative. -/
theorem exact_nonneg (plus : IsPlus a.toModel.unpack) : 0 ≤ exact a := by
  rw [exact, Reading.ofFloat_eq]
  revert plus
  generalize a.toModel.unpack = u
  rintro (_ | _ | _ | ⟨m, e, positive⟩)
  · exact le_rfl
  · exact le_rfl
  · exact (Binary.exact_of_zero rfl).ge
  · exact (Binary.exact_of_plus rfl).ge.trans' (Binary.magnitude_pos positive).le

end Binary64

end Fluxion
