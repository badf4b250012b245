import Fluxion.Proofs.Rounding

/-!
# Decimals as machine numbers

A decimal denotes the machine number that it lies near to (`Decimal.nearestFloat_eq_of_near`).  Short
decimals are products or quotients of two machine numbers that are exact; of the others the
quotient or product of whole numbers is rounded.
-/

namespace Fluxion

open Float.Model (UnpackedFloat Format totalExponent)
open Float.Model.UnpackedFloat (Sign Accuracy packComponents roundWithAccuracy unpackSign)
open Decimal (Binary Reading leastExponent)

/-! ### Readings of machine numbers -/

namespace Decimal.Reading

variable {c : Float} {value : Binary}

/-- A finite number is read with a significand of full width, or with the
smallest exponent there is. -/
theorem canonical (read : ofFloat c = .finite value) :
    value.Canonical ∧ value.exponent ≤ 971 := by
  have short : c.toBits.toNat % 2 ^ 52 < 2 ^ 52 := Nat.mod_lt _ (by decide)
  have biased : c.toBits.toNat / 2 ^ 52 % 2 ^ 11 < 2 ^ 11 := Nat.mod_lt _ (by decide)
  have least : leastExponent = -1074 := rfl
  change (if c.toBits.toNat / 2 ^ 52 % 2 ^ 11 = 2047 then
      if c.toBits.toNat % 2 ^ 52 = 0 then .infinite (decide (2 ^ 63 ≤ c.toBits.toNat))
      else .notANumber
    else if c.toBits.toNat / 2 ^ 52 % 2 ^ 11 = 0 then
      .finite ⟨decide (2 ^ 63 ≤ c.toBits.toNat), c.toBits.toNat % 2 ^ 52, leastExponent⟩
    else
      .finite ⟨decide (2 ^ 63 ≤ c.toBits.toNat), 2 ^ 52 + c.toBits.toNat % 2 ^ 52,
        Int.ofNat (c.toBits.toNat / 2 ^ 52 % 2 ^ 11) - 1075⟩) = Reading.finite value at read
  generalize c.toBits.toNat % 2 ^ 52 = fraction, c.toBits.toNat / 2 ^ 52 % 2 ^ 11 = exponent at *
  split at read
  · split at read <;> cases read
  · next ordinary =>
    split at read <;> cases read
    · exact ⟨⟨show fraction < 2 ^ 53 by omega, le_rfl, .inl rfl⟩, show leastExponent ≤ 971 by omega⟩
    · next normal =>
      refine ⟨⟨show 2 ^ 52 + fraction < 2 ^ 53 by omega, ?_, .inr (Nat.le_add_right _ _)⟩, ?_⟩
      · change leastExponent ≤ (exponent : ℤ) - 1075
        omega
      · change (exponent : ℤ) - 1075 ≤ 971
        omega

/-- A number that is not zero, unpacked. -/
theorem unpack_eq (read : ofFloat c = .finite value) (positive : 0 < value.significand) :
    c.toModel.unpack = .finite (if value.negative then .negative else .positive)
      value.significand value.exponent positive := by
  rw [ofFloat_eq] at read
  revert read
  rcases c.toModel.unpack with _ | _ | sign | ⟨sign, mantissa, exponent, _⟩ <;> intro read <;>
    cases read
  · exact absurd positive (lt_irrefl 0)
  · cases sign <;> rfl

/-- Zero, unpacked. -/
theorem unpack_eq_zero (read : ofFloat c = .finite value) (zero : value.significand = 0) :
    c.toModel.unpack = .zero (if value.negative then .negative else .positive) := by
  rw [ofFloat_eq] at read
  revert read
  rcases c.toModel.unpack with _ | _ | sign | ⟨sign, mantissa, exponent, positive⟩ <;>
    intro read <;> cases read
  · cases sign <;> rfl
  · exact absurd zero positive.ne'

end Decimal.Reading

/-! ### Exact whole numbers -/

namespace Binary64

/-- Unpacked, the number is the whole number, with a leading one.  Decidable,
so that the table of powers can be checked entry by entry. -/
def IsWhole (n : ℕ) : UnpackedFloat → Prop
  | .finite .positive m e _ => 2 ^ 52 ≤ m ∧ m * 2 ^ e.toNat = n * 2 ^ (-e).toNat
  | _ => False

/-- It is decided by comparing two products of whole numbers. -/
instance (n : ℕ) : DecidablePred (IsWhole n)
  | .finite .positive m e _ =>
    inferInstanceAs (Decidable (2 ^ 52 ≤ m ∧ m * 2 ^ e.toNat = n * 2 ^ (-e).toNat))
  | .finite .negative _ _ _ | .zero _ | .infinity _ | .notANumber => isFalse id

/-- What is the whole number unpacked has a significand and an exponent that
say so over the rationals. -/
theorem IsWhole.exists {n : ℕ} {u : UnpackedFloat} (whole : IsWhole n u) :
    ∃ m e positive, u = .finite .positive m e positive ∧ 2 ^ 52 ≤ m ∧ (m : ℚ) * 2 ^ e = n := by
  rcases u with _ | _ | _ | ⟨_ | _, m, e, positive⟩
  case finite.positive =>
    have same : (m : ℚ) * 2 ^ e.toNat = n * 2 ^ (-e).toNat := by exact_mod_cast whole.2
    refine ⟨m, e, positive, rfl, whole.1, ?_⟩
    refine mul_right_cancel₀ (b := 2 ^ (-e).toNat) (by positivity) ?_
    rw [mul_assoc, Decimal.zpow_mul_pow_toNat two_ne_zero, same]
  all_goals exact whole.elim

/-- The table of powers of ten is right.  Each entry is unpacked and compared
with the whole number. -/
theorem isWhole_powerOfTen (k : Fin 23) :
    IsWhole (10 ^ k.val) (Float.exactlyRepresentablePowersOfTen[k]).toModel.unpack := by
  revert k
  decide

/-- A significand of full width is put together again from its lower bits. -/
theorem toNat_leadingOne_ofNat {m : ℕ} (full : 2 ^ 52 ≤ m) (short : m < 2 ^ 53) :
    (1#1 ++ BitVec.ofNat 52 m).toNat = m := by
  rw [toNat_leadingOne, BitVec.toNat_ofNat]
  omega

theorem unpack_packComponents {sign : Sign} {exponent : BitVec 11} {mantissa : BitVec 52} {m : ℕ}
    {e : ℤ} (positive : 0 < m) (ordinary : exponent ≠ -1#11) (normal : exponent ≠ 0#11)
    (whole : (1#1 ++ mantissa).toNat = m) (biased : (exponent.toNat : ℤ) - 1075 = e) :
    UnpackedFloat.unpack .binary64 (packComponents .binary64 sign exponent mantissa) =
      .finite sign m e positive := by
  subst whole biased
  simp only [UnpackedFloat.unpack, UnpackedFloat.unpackExponent_packComponents,
    UnpackedFloat.unpackMantissa_packComponents, UnpackedFloat.unpackSign_packComponents,
    if_neg ordinary, if_neg normal]
  cases sign <;> rfl

/-- A number with a leading one is unpacked as it was packed. -/
theorem unpack_pack {m : ℕ} {e : ℤ} (sign : Sign) (positive : 0 < m) (full : 2 ^ 52 ≤ m)
    (short : m < 2 ^ 53) (least_le : -1074 ≤ e) (le_greatest : e ≤ 971) :
    UnpackedFloat.unpack .binary64 (UnpackedFloat.pack .binary64 (.finite sign m e positive)) =
      .finite sign m e positive := by
  have bits : m.log2 + 1 = Format.binary64.mantissaBits :=
    congrArg (· + 1) ((Nat.log2_eq_iff positive.ne').2 ⟨full, short⟩)
  have biased : (BitVec.ofNat 11 (e + 1075).toNat).toNat = (e + 1075).toNat := by
    rw [BitVec.toNat_ofNat]
    omega
  have packed : UnpackedFloat.pack .binary64 (.finite sign m e positive) =
      packComponents .binary64 sign (BitVec.ofNat 11 (e + 1075).toNat) (BitVec.ofNat 52 m) := by
    have bias : (e + Format.binary64.exponentBias +
        Format.binary64.mantissaBitsWithoutImplicit).toNat = (e + 1075).toNat := by
      change (e + 1023 + 52).toNat = _
      omega
    simp only [UnpackedFloat.pack, bias]
    rw [if_neg (show ¬2 ^ 11 ≤ (e + 1075).toNat + 1 by omega), if_pos bits]
  rw [packed]
  refine unpack_packComponents positive ?_ ?_ (toNat_leadingOne_ofNat full short) (by omega)
  · intro last
    rw [last] at biased
    change 2047 = _ at biased
    omega
  · intro zero
    rw [zero] at biased
    change 0 = _ at biased
    omega

/-- One of the smallest numbers is unpacked as it was packed. -/
theorem unpack_pack_of_small {m : ℕ} (sign : Sign) (positive : 0 < m) (small : m < 2 ^ 52) :
    UnpackedFloat.unpack .binary64 (UnpackedFloat.pack .binary64 (.finite sign m (-1074) positive)) =
      .finite sign m (-1074) positive := by
  have bits : m.log2 + 1 ≠ Format.binary64.mantissaBits := by
    have less := (Nat.log2_lt positive.ne').2 small
    change m.log2 + 1 ≠ 53
    omega
  have mantissa : (BitVec.ofNat 52 m).toNat = m := by
    rw [BitVec.toNat_ofNat]
    omega
  have nonzero : BitVec.ofNat 52 m ≠ 0#52 := by
    intro zero
    rw [zero] at mantissa
    exact positive.ne mantissa
  have packed : UnpackedFloat.pack .binary64 (.finite sign m (-1074) positive) =
      packComponents .binary64 sign (0#11) (BitVec.ofNat 52 m) := by
    have least : ¬2 ^ Format.binary64.exponentBits ≤ (-1074 + Format.binary64.exponentBias +
        Format.binary64.mantissaBitsWithoutImplicit : ℤ).toNat + 1 := by decide
    simp only [UnpackedFloat.pack, if_neg least, if_neg bits]
  have zero : (0#11) ≠ -1#11 := by decide
  rw [packed]
  simp only [UnpackedFloat.unpack, UnpackedFloat.unpackExponent_packComponents,
    UnpackedFloat.unpackMantissa_packComponents, UnpackedFloat.unpackSign_packComponents,
    if_neg zero, if_true, dif_neg nonzero, mantissa]
  cases sign <;> rfl

/-- A machine number is unpacked as it was packed.  The two cases are numbers
with a leading one and the smallest numbers. -/
theorem unpack_pack_of_canonical {value : Binary} (sign : Sign) (canonical : value.Canonical)
    (le_greatest : value.exponent ≤ 971) (positive : 0 < value.significand) :
    UnpackedFloat.unpack .binary64 (UnpackedFloat.pack .binary64
        (.finite sign value.significand value.exponent positive)) =
      .finite sign value.significand value.exponent positive := by
  by_cases full : 2 ^ 52 ≤ value.significand
  · exact unpack_pack sign positive full canonical.short canonical.least_le le_greatest
  · have smallest : value.exponent = -1074 := canonical.full.resolve_right full
    simp only [smallest]
    exact unpack_pack_of_small sign positive (Nat.lt_of_not_le full)

theorem unpack_neg (a : Float) : (-a).toModel.unpack = a.toModel.unpack.neg := by
  change UnpackedFloat.unpack .binary64 (UnpackedFloat.pack .binary64 a.toModel.unpack.neg) = _
  cases unpacked : a.toModel.unpack with
  | notANumber => rfl
  | infinity sign => cases sign <;> rfl
  | zero sign => cases sign <;> rfl
  | finite sign mantissa exponent positive =>
    have read : Reading.ofFloat a = .finite ⟨sign == .negative, mantissa, exponent⟩ := by
      rw [Reading.ofFloat_eq, unpacked]
      rfl
    obtain ⟨canonical, le_greatest⟩ := Reading.canonical read
    exact unpack_pack_of_canonical (-sign) canonical le_greatest positive

section Conversion

variable {n : ℕ} (positive : 0 < n) (short : n < 2 ^ 53)

include positive short

/-- Shifted to the left end, a number below the limit has the leading
one of the format. -/
theorem leadingOne_shiftLeft :
    2 ^ 52 ≤ n <<< (52 - n.log2) ∧ n <<< (52 - n.log2) < 2 ^ 53 := by
  have bits := (Nat.log2_lt positive.ne').2 short
  rw [Nat.shiftLeft_eq]
  constructor
  · calc 2 ^ 52 = 2 ^ n.log2 * 2 ^ (52 - n.log2) := by rw [← pow_add]; congr 1; omega
      _ ≤ n * 2 ^ (52 - n.log2) := by gcongr; exact Nat.log2_self_le positive.ne'
  · calc n * 2 ^ (52 - n.log2) < 2 ^ (n.log2 + 1) * 2 ^ (52 - n.log2) := by
          gcongr
          exact Nat.lt_log2_self
      _ = 2 ^ 53 := by rw [← pow_add]; congr 1; omega

/-- A whole number of at most 53 bits is converted by shifting it to the left
end, without rounding. -/
theorem ofUInt64_eq :
    UnpackedFloat.ofUInt64 .binary64 n.toUInt64 =
      .finite .positive (n <<< (52 - n.log2)) (n.log2 - 52) (Nat.shiftLeft_pos_iff.2 positive) := by
  obtain ⟨full, leading⟩ := leadingOne_shiftLeft positive short
  have bits := (Nat.log2_lt positive.ne').2 short
  have word : n.toUInt64.toNat = n := by
    rw [UInt64.toNat_ofNat']
    omega
  have target : Format.binary64.targetExponent (totalExponent n 0) = n.log2 - 52 := by
    rw [targetExponent_eq]
    have : leastExponent = -1074 := rfl
    omega
  have shift : (0 - ((n.log2 : ℤ) - 52)).toNat = 52 - n.log2 := by omega
  rw [UnpackedFloat.ofUInt64, word, UnpackedFloat.ofNat, UnpackedFloat.ofInt,
    UnpackedFloat.normalize, Int.compare_eq_gt.2 (by omega)]
  simp only [UnpackedFloat.round, Int.toNat_natCast, target, UnpackedFloat.decreaseExponent, shift]
  have exponent : (0 : ℤ) - (52 - n.log2 : ℕ) = n.log2 - 52 := by omega
  rw [exponent]
  have nonzero : n <<< (52 - n.log2) ≠ 0 := by omega
  have canonical : (⟨false, n <<< (52 - n.log2), n.log2 - 52⟩ : Binary).Canonical :=
    ⟨leading, show (-1074 : ℤ) ≤ n.log2 - 52 by omega, .inr full⟩
  refine roundWithAccuracy_eq_of_near canonical nonzero Nat.one_pos
    (ofMantissaAndAccuracy_exact _) (.inl full) ?_ .positive
  rw [Nat.cast_one, div_one]
  exact Binary.near_self nonzero

theorem isWhole_toFloat : IsWhole n n.toUInt64.toFloat.toModel.unpack := by
  obtain ⟨full, leading⟩ := leadingOne_shiftLeft positive short
  have bits := (Nat.log2_lt positive.ne').2 short
  change IsWhole n (UnpackedFloat.unpack .binary64
    (UnpackedFloat.pack .binary64 (UnpackedFloat.ofUInt64 .binary64 n.toUInt64)))
  rw [ofUInt64_eq positive short, unpack_pack _ _ full leading (by omega) (by omega)]
  refine ⟨full, ?_⟩
  have none : ((n.log2 : ℤ) - 52).toNat = 0 := by omega
  have shift : (-((n.log2 : ℤ) - 52)).toNat = 52 - n.log2 := by omega
  rw [none, shift, pow_zero, mul_one, Nat.shiftLeft_eq]

end Conversion

end Binary64

/-! ### Decimals -/

namespace Decimal

variable {c : Float} {value : Binary} {digits k : ℕ}

/-- A positive machine number is put together again from its reading. -/
theorem ofModel_pack_of_read (read : Reading.ofFloat c = .finite value)
    (unsigned : value.negative = false) (positive : 0 < value.significand) :
    Float.ofModel (.pack (.finite .positive value.significand value.exponent positive)) = c := by
  have unpacked := Reading.unpack_eq read positive
  rw [unsigned] at unpacked
  exact unpacked ▸ Binary64.ofModel_pack_unpack c

section Scientific

variable (read : Reading.ofFloat c = .finite value) (unsigned : value.negative = false)
  (positive : 0 < value.significand) (nonzero : 0 < digits)

/-- Of a whole number the exact product is rounded, once: both factors are exact. -/
theorem unpacked_ofScientific_mul (nonzero : 0 < digits) (bound : k ≤ 2048) :
    UnpackedFloat.ofScientific .binary64 digits (Int.ofNat k) =
      .mul .binary64 (.finite .positive (digits <<< 53) (-53) (Nat.shiftLeft_pos_iff.2 nonzero))
        (.finite .positive (10 ^ k) 0 (by positivity)) := by
  have few : ¬(Int.ofNat k > 2 ^ Format.binary64.exponentBits) := by
    change ¬((k : ℤ) > 2 ^ 11)
    omega
  have many : ¬(Int.ofNat k < -(2 ^ Format.binary64.exponentBits + digits.log2)) := by
    change ¬((k : ℤ) < -(2 ^ 11 + digits.log2))
    omega
  rw [UnpackedFloat.ofScientific, dif_neg nonzero.ne', if_neg few, if_neg many,
    if_pos (show 0 ≤ Int.ofNat k from Int.natCast_nonneg k)]
  rfl

/-- Of a fraction the exact quotient is rounded, once: numerator and
denominator are exact. -/
theorem unpacked_ofScientific_div (nonzero : 0 < digits) (fraction : 0 < k)
    (bound : k ≤ 2048 + digits.log2) :
    UnpackedFloat.ofScientific .binary64 digits (Int.negOfNat k) =
      .div .binary64 (.finite .positive digits 0 nonzero)
        (.finite .positive (10 ^ k) 0 (by positivity)) := by
  have opposite : Int.negOfNat k = -(k : ℤ) := Int.negOfNat_eq
  have few : ¬(-(k : ℤ) > 2 ^ Format.binary64.exponentBits) := by
    change ¬(-(k : ℤ) > 2 ^ 11)
    omega
  have many : ¬(-(k : ℤ) < -(2 ^ Format.binary64.exponentBits + digits.log2)) := by
    change ¬(-(k : ℤ) < -(2 ^ 11 + digits.log2))
    omega
  rw [opposite, UnpackedFloat.ofScientific, dif_neg nonzero.ne', if_neg few, if_neg many,
    if_neg (by omega)]
  simp only [neg_neg, Int.toNat_natCast]

include read unsigned positive

/-- Digits with zeros behind them are converted to the machine number that
they are near to. -/
theorem ofScientific_false_eq_of_near (nonzero : 0 < digits) (bound : k ≤ 2048)
    (near : value.Near (digits * 10 ^ k)) : Float.ofScientific digits false k = c := by
  have canonical := (Reading.canonical read).1
  rw [← ofModel_pack_of_read read unsigned positive, Float.ofScientific]
  split
  · next short =>
    obtain ⟨m₁, e₁, positive₁, unpacked₁, full, same₁⟩ :=
      (Binary64.isWhole_toFloat nonzero short.1).exists
    obtain ⟨m₂, e₂, positive₂, unpacked₂, -, same₂⟩ :=
      (Binary64.isWhole_powerOfTen ⟨k, Nat.lt_succ_of_le short.2⟩).exists
    have product := Binary64.mul_eq_of_near positive₁ positive₂ canonical positive.ne'
      (full.trans (Nat.le_mul_of_pos_right m₁ positive₂))
      (by rw [same₁, same₂]; exact_mod_cast near) .positive .positive
    rw [← unpacked₁, ← unpacked₂] at product
    exact congrArg (Float.ofModel ∘ .pack) product
  · change Float.ofModel (.pack (UnpackedFloat.ofScientific .binary64 digits (Int.ofNat k))) = _
    have same : ((digits <<< 53 : ℕ) : ℚ) * 2 ^ (-53 : ℤ) = digits := by
      rw [Nat.shiftLeft_eq, Nat.cast_mul, mul_assoc]
      norm_num
    rw [unpacked_ofScientific_mul nonzero bound, Binary64.mul_eq_of_near _ _ canonical positive.ne']
    · rfl
    · rw [Nat.shiftLeft_eq]
      calc 2 ^ 52 ≤ 1 * 2 ^ 53 * 1 := by decide
        _ ≤ digits * 2 ^ 53 * 10 ^ k := by gcongr <;> exact Nat.pos_of_ne_zero (by positivity)
    · rw [same, zpow_zero, mul_one]
      exact_mod_cast near

/-- Digits with a fraction are converted to the machine number that they
are near to. -/
theorem ofScientific_true_eq_of_near (nonzero : 0 < digits) (fraction : 0 < k)
    (bound : k ≤ 2048 + digits.log2) (near : value.Near (digits / 10 ^ k)) :
    Float.ofScientific digits true k = c := by
  have canonical := (Reading.canonical read).1
  rw [← ofModel_pack_of_read read unsigned positive, Float.ofScientific]
  split
  · next short =>
    obtain ⟨m₁, e₁, positive₁, unpacked₁, -, same₁⟩ :=
      (Binary64.isWhole_toFloat nonzero short.1).exists
    obtain ⟨m₂, e₂, positive₂, unpacked₂, -, same₂⟩ :=
      (Binary64.isWhole_powerOfTen ⟨k, Nat.lt_succ_of_le short.2⟩).exists
    have quotient := Binary64.div_eq_of_near positive₁ positive₂ canonical positive.ne'
      (by rw [same₁, same₂]; exact_mod_cast near) .positive .positive
    rw [← unpacked₁, ← unpacked₂] at quotient
    exact congrArg (Float.ofModel ∘ .pack) quotient
  · change Float.ofModel (.pack (UnpackedFloat.ofScientific .binary64 digits (Int.negOfNat k))) = _
    rw [unpacked_ofScientific_div nonzero fraction bound,
      Binary64.div_eq_of_near _ _ canonical positive.ne']
    · rfl
    · rw [zpow_zero, mul_one, mul_one]
      exact_mod_cast near

end Scientific

/-! ### Where the leading digit of a decimal stands -/

/-- A whole number has as many digits as the powers of ten around it say. -/
theorem pow_length_bounds (nonzero : 0 < digits) :
    ∃ count, (toString digits).length = count + 1 ∧ 10 ^ count ≤ digits ∧
      digits < 10 ^ (count + 1) := by
  obtain ⟨count, length⟩ := Nat.exists_eq_add_of_lt (Nat.length_repr_pos (n := digits))
  rw [Nat.zero_add] at length
  refine ⟨count, length, ?_, (Nat.length_repr_le_iff count.succ_pos).1 length.le⟩
  obtain rfl | positive := count.eq_zero_or_pos
  · exact nonzero
  · by_contra less
    have shorter := (Nat.length_repr_le_iff positive).2 (Nat.lt_of_not_le less)
    omega

/-- A decimal lies between the powers of ten around its leading digit. -/
theorem bounds_of_length (nonzero : 0 < digits) (exponent : ℤ) :
    (10 : ℚ) ^ (Int.ofNat (toString digits).length + exponent - 1) ≤ digits * 10 ^ exponent ∧
      (digits : ℚ) * 10 ^ exponent < 10 ^ (Int.ofNat (toString digits).length + exponent) := by
  obtain ⟨count, length, below, above⟩ := pow_length_bounds nonzero
  have low : (10 : ℚ) ^ count ≤ digits := by exact_mod_cast below
  have high : (digits : ℚ) < 10 ^ (count + 1) := by exact_mod_cast above
  have leading : Int.ofNat (count + 1) + exponent - 1 = (count : ℤ) + exponent := by
    change ((count + 1 : ℕ) : ℤ) + exponent - 1 = _
    omega
  rw [length, leading, zpow_add₀ (by norm_num), zpow_add₀ (by norm_num)]
  constructor
  · gcongr
    exact_mod_cast low
  · gcongr
    exact high

/-- The smallest machine numbers are far above the decimals that are cut off. -/
theorem two_pow_lt_ten_pow : (2 : ℚ) ^ 1075 < 10 ^ 400 := by
  calc (2 : ℚ) ^ 1075 < 2 ^ 1080 := pow_lt_pow_right₀ one_lt_two (by decide)
    _ = (2 ^ 27) ^ 40 := by rw [← pow_mul]
    _ < (10 ^ 10) ^ 40 := by gcongr; norm_num
    _ = 10 ^ 400 := by rw [← pow_mul]

/-- What lies near to a machine number is neither large nor small beyond
measure, so reading it is not cut off. -/
theorem Binary.Near.bounds {x : ℚ} (near : value.Near x) (canonical : value.Canonical)
    (le_greatest : value.exponent ≤ 971) (nonzero : value.significand ≠ 0) :
    (10 : ℚ) ^ (-400 : ℤ) < x ∧ x < 10 ^ (400 : ℤ) := by
  constructor
  · have least : (1 : ℚ) ≤ value.significand := by exact_mod_cast Nat.pos_of_ne_zero nonzero
    calc (10 : ℚ) ^ (-400 : ℤ) < 2 ^ (-1075 : ℤ) := by
          rw [zpow_neg, zpow_neg]
          gcongr
          exact_mod_cast two_pow_lt_ten_pow
      _ = (1 - 1 / 2) * 2 ^ (-1074 : ℤ) := by
          rw [show (-1075 : ℤ) = -1 + -1074 by norm_num, zpow_add₀ two_ne_zero]
          norm_num
      _ ≤ (value.significand - 1 / 2) * 2 ^ value.exponent := by
          gcongr
          · linarith
          · norm_num
          · exact canonical.least_le
      _ ≤ x := (value.half_le_low nonzero).trans near.low_le
  · calc x < 2 ^ (value.exponent + 53) := near.lt canonical
      _ ≤ 2 ^ (1075 : ℤ) := by
        gcongr
        · norm_num
        · omega
      _ < 10 ^ (400 : ℤ) := by exact_mod_cast two_pow_lt_ten_pow

/-- Decimals are read to the machine number that they are near to.  Those that
are cut off before a power is formed are near to none. -/
theorem nearestFloat_eq_of_near (read : Reading.ofFloat c = .finite value)
    (unsigned : value.negative = false) (positive : 0 < value.significand) {exponent : ℤ}
    (nonzero : 0 < digits) (near : value.Near (digits * 10 ^ exponent)) :
    nearestFloat digits exponent = c := by
  obtain ⟨canonical, le_greatest⟩ := Reading.canonical read
  obtain ⟨small, large⟩ := near.bounds canonical le_greatest positive.ne'
  obtain ⟨low, high⟩ := bounds_of_length nonzero exponent
  have few := (zpow_lt_zpow_iff_right₀ (by norm_num)).1 (low.trans_lt large)
  have many := (zpow_lt_zpow_iff_right₀ (by norm_num)).1 (small.trans high)
  unfold nearestFloat
  rw [if_neg nonzero.ne']
  dsimp only
  rw [if_neg (by omega), if_neg (by omega)]
  obtain ⟨count, length, least, -⟩ := pow_length_bounds nonzero
  rw [length] at few many
  cases exponent with
  | ofNat k =>
    have bound : k ≤ 2048 := by
      change ((count + 1 : ℕ) : ℤ) + (k : ℤ) - 1 < 400 at few
      omega
    rw [Int.ofNat_eq_natCast, zpow_natCast] at near
    exact ofScientific_false_eq_of_near read unsigned positive nonzero bound near
  | negSucc k =>
    have bound : k + 1 ≤ 2048 + digits.log2 := by
      have bits : count ≤ digits.log2 :=
        (Nat.le_log2 nonzero.ne').2 ((Nat.pow_le_pow_left (by decide) count).trans least)
      change (-400 : ℤ) < ((count + 1 : ℕ) : ℤ) + Int.negSucc k at many
      omega
    rw [zpow_negSucc] at near
    exact ofScientific_true_eq_of_near read unsigned positive nonzero k.succ_pos bound near

end Decimal

/-! ### Decimals are not negative -/

namespace Binary64

/-- Unpacked, the number has no minus sign.  It holds of zero and of
infinity as well. -/
inductive IsPlus : UnpackedFloat → Prop
  | notANumber : IsPlus .notANumber
  | infinity : IsPlus (.infinity .positive)
  | zero : IsPlus (.zero .positive)
  | finite (m : ℕ) (e : ℤ) (positive : 0 < m) : IsPlus (.finite .positive m e positive)

variable {u v : UnpackedFloat}

theorem IsWhole.isPlus {n : ℕ} (whole : IsWhole n u) : IsPlus u := by
  obtain ⟨m, e, positive, rfl, -⟩ := whole.exists
  exact .finite m e positive

/-- Rounding a magnitude gives no minus sign, whatever it is rounded to. -/
theorem isPlus_roundWithAccuracy (m : ℕ) (e : ℤ) (accuracy : Accuracy) :
    IsPlus (roundWithAccuracy .binary64 .positive m e accuracy) := by
  unfold roundWithAccuracy
  dsimp only
  split
  · exact .zero
  · exact .finite ..

theorem IsPlus.mul (left : IsPlus u) (right : IsPlus v) : IsPlus (.mul .binary64 u v) := by
  cases left <;> cases right
  case finite.finite => exact isPlus_roundWithAccuracy ..
  all_goals constructor

/-- Quotients of numbers without a minus sign have none. -/
theorem IsPlus.div (left : IsPlus u) (right : IsPlus v) : IsPlus (.div .binary64 u v) := by
  cases left <;> cases right
  case finite.finite => exact isPlus_roundWithAccuracy ..
  all_goals constructor

theorem isPlus_unpack {bits : BitVec Format.binary64.numBits}
    (plus : Sign.ofBitVec (unpackSign bits) = .positive) :
    IsPlus (UnpackedFloat.unpack .binary64 bits) := by
  simp only [UnpackedFloat.unpack, plus]
  split
  · split
    · exact .infinity
    · exact .notANumber
  · split
    · split
      · exact .zero
      · exact .finite ..
    · exact .finite ..

theorem IsPlus.unpack_pack (plus : IsPlus u) :
    IsPlus (UnpackedFloat.unpack .binary64 (UnpackedFloat.pack .binary64 u)) := by
  cases plus with
  | notANumber => exact .notANumber
  | infinity => exact .infinity
  | zero => exact .zero
  | finite m e positive =>
    apply isPlus_unpack
    unfold UnpackedFloat.pack
    dsimp only
    split
    · rfl
    · split <;> rw [UnpackedFloat.unpackSign_packComponents] <;> rfl

/-- The conversion of digits brings no minus sign, and neither does
packing the result. -/
theorem isPlus_ofScientific (digits : ℕ) (exponent : ℤ) :
    IsPlus (UnpackedFloat.ofScientific .binary64 digits exponent) := by
  unfold UnpackedFloat.ofScientific
  split
  · exact .zero
  · split
    · exact .infinity
    · split
      · exact .zero
      · split
        · exact (IsPlus.finite ..).mul (.finite ..)
        · exact (IsPlus.finite ..).div (.finite ..)

end Binary64

namespace Decimal

open Binary64 (IsPlus)

theorem isPlus_ofScientific {digits : ℕ} (nonzero : 0 < digits) (small : Bool) (k : ℕ) :
    IsPlus (Float.ofScientific digits small k).toModel.unpack := by
  unfold Float.ofScientific
  split
  · next short =>
    have number := (Binary64.isWhole_toFloat nonzero short.1).isPlus
    have power := (Binary64.isWhole_powerOfTen ⟨k, Nat.lt_succ_of_le short.2⟩).isPlus
    cases small
    · exact (number.mul power).unpack_pack
    · exact (number.div power).unpack_pack
  · exact (Binary64.isPlus_ofScientific digits _).unpack_pack

/-- A decimal without a sign denotes a number without one, which is never the
negative zero. -/
theorem isPlus_nearestFloat (digits : ℕ) (exponent : ℤ) :
    IsPlus (nearestFloat digits exponent).toModel.unpack := by
  unfold nearestFloat
  dsimp only
  split
  · exact .zero
  · next nonzero =>
    split
    · exact .infinity
    · split
      · exact .zero
      · cases exponent <;> exact isPlus_ofScientific (Nat.pos_of_ne_zero nonzero) _ _

end Decimal

end Fluxion
