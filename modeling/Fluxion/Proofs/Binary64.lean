import Mathlib
import Fluxion.Scalar.Binary64

/-!
# Machine numbers

What the library relies on about double-precision arithmetic.  Sums, differences, products and roots
are finite only where their operands are, and quotients only where their dividend is: an infinity can
vanish below a fraction stroke and nowhere else (`isFinite_of_add` to `isFinite_of_sqrt`).
Comparisons are swapped with their operands (`compare_swap`), `≤` is a total preorder of the numbers
(`le_iff_rank`), and nothing compares with what is not a number (`isNaN_of_lt`).  The negative zero
is neutral for addition (`negativeZero_add`); that is why sums start from it.  A change of sign
changes nothing about being finite (`isFinite_neg`).

Machine numbers are handled as they are unpacked: sign, mantissa and exponent, or a special value.
-/

namespace Fluxion.Binary64

open Float.Model (UnpackedFloat Format)
open Float.Model.UnpackedFloat
  (Sign packComponents packedInfinity packedZero unpackSign unpackExponent unpackMantissa)

variable {a b c : Float}

attribute [local simp] UnpackedFloat.isFinite UnpackedFloat.isNaN UnpackedFloat.isInf

/-! ### Finite results -/

/-- What is packed as a finite number is finite. -/
theorem isFinite_of_pack {u : UnpackedFloat} (finite : (Float.Model.pack u).isFinite = true) :
    u.isFinite = true := by
  cases u with
  | notANumber => exact finite
  | infinity sign => cases sign <;> exact finite
  | zero sign => rfl
  | finite sign mantissa exponent positive => rfl

theorem isFinite_of_add (finite : (a + b).isFinite = true) :
    a.isFinite = true ∧ b.isFinite = true := by
  have unpacked := isFinite_of_pack finite
  change a.toModel.unpack.isFinite = true ∧ b.toModel.unpack.isFinite = true
  revert unpacked
  generalize a.toModel.unpack = u, b.toModel.unpack = v
  fun_cases UnpackedFloat.add .binary64 u v <;> simp_all

theorem isFinite_of_sub (finite : (a - b).isFinite = true) :
    a.isFinite = true ∧ b.isFinite = true := by
  have unpacked := isFinite_of_pack finite
  change a.toModel.unpack.isFinite = true ∧ b.toModel.unpack.isFinite = true
  revert unpacked
  generalize a.toModel.unpack = u, b.toModel.unpack = v
  fun_cases UnpackedFloat.sub .binary64 u v <;> simp_all

theorem isFinite_of_mul (finite : (a * b).isFinite = true) :
    a.isFinite = true ∧ b.isFinite = true := by
  have unpacked := isFinite_of_pack finite
  change a.toModel.unpack.isFinite = true ∧ b.toModel.unpack.isFinite = true
  revert unpacked
  generalize a.toModel.unpack = u, b.toModel.unpack = v
  fun_cases UnpackedFloat.mul .binary64 u v <;> simp_all

/-- A quotient is finite only if its numerator is; the denominator may be infinite. -/
theorem isFinite_of_div (finite : (a / b).isFinite = true) : a.isFinite = true := by
  have unpacked := isFinite_of_pack finite
  change a.toModel.unpack.isFinite = true
  revert unpacked
  generalize a.toModel.unpack = u, b.toModel.unpack = v
  fun_cases UnpackedFloat.div .binary64 u v <;> simp_all

theorem isFinite_of_sqrt (finite : a.sqrt.isFinite = true) : a.isFinite = true := by
  have unpacked := isFinite_of_pack finite
  change a.toModel.unpack.isFinite = true
  revert unpacked
  generalize a.toModel.unpack = u
  fun_cases UnpackedFloat.sqrt .binary64 u <;> simp_all

/-- Finite is what is neither infinite nor no number at all.  The three tests
of machine numbers fit together. -/
theorem isFinite_iff : a.isFinite = true ↔ a.isNaN = false ∧ a.isInf = false := by
  change a.toModel.unpack.isFinite = true ↔
    a.toModel.unpack.isNaN = false ∧ a.toModel.unpack.isInf = false
  cases a.toModel.unpack <;> simp

theorem isNaN_of_isInf (infinite : a.isInf = true) : a.isNaN = false := by
  change a.toModel.unpack.isInf = true at infinite
  change a.toModel.unpack.isNaN = false
  revert infinite
  cases a.toModel.unpack <;> simp

/-! ### Comparisons -/

/-- The order of machine numbers is the comparison of what they unpack to. -/
theorem le_iff_compare :
    a ≤ b ↔ (a.toModel.unpack.compare b.toModel.unpack).any Ordering.isLE = true := by
  change a.le b = true ↔ _
  exact decide_eq_true_iff

/-- The strict order of machine numbers is the comparison of what they unpack to. -/
theorem lt_iff_compare : a < b ↔ a.toModel.unpack.compare b.toModel.unpack = some .lt := by
  change a.lt b = true ↔ _
  rw [Float.lt, decide_eq_true_iff]
  change a.toModel.unpack.lt b.toModel.unpack = true ↔ _
  rw [UnpackedFloat.lt, beq_iff_eq]

/-- The equality of machine numbers is the comparison of what they unpack to,
which takes both zeros for the same. -/
theorem beq_iff_compare :
    (a == b) = true ↔ a.toModel.unpack.compare b.toModel.unpack = some .eq := by
  change a.toModel.unpack.beq b.toModel.unpack = true ↔ _
  rw [UnpackedFloat.beq, beq_iff_eq]

theorem compare_swap (u v : UnpackedFloat) : v.compare u = (u.compare v).map Ordering.swap := by
  rcases u with (_ | _) | _ | _ | ⟨_ | _, _, _, _⟩ <;>
    rcases v with (_ | _) | _ | _ | ⟨_ | _, _, _, _⟩ <;>
    simp [UnpackedFloat.compare, Ordering.swap_then, Int.compare_swap, Nat.compare_swap]
  -- infinities compare by their signs
  all_goals rfl

theorem le_of_lt_or_beq (h : a < b ∨ (a == b) = true) : a ≤ b := by
  rw [le_iff_compare]
  rcases h with less | same
  · rw [lt_iff_compare.1 less]
    rfl
  · rw [beq_iff_compare.1 same]
    rfl

theorem not_lt_of_lt (less : a < b) : ¬b < a := by
  rw [lt_iff_compare, compare_swap, lt_iff_compare.1 less]
  decide

theorem beq_eq_false_of_lt (less : a < b) : (a == b) = false := by
  rw [← Bool.not_eq_true, beq_iff_compare, lt_iff_compare.1 less]
  decide

theorem beq_eq_false_of_gt (less : a < b) : (b == a) = false := by
  rw [← Bool.not_eq_true, beq_iff_compare, compare_swap, lt_iff_compare.1 less]
  decide

/-- Nothing is below what is not a number. -/
theorem isNaN_of_lt (less : a < b) : b.isNaN = false := by
  have compared := lt_iff_compare.1 less
  change b.toModel.unpack.isNaN = false
  revert compared
  generalize a.toModel.unpack = u, b.toModel.unpack = v
  cases v <;> cases u <;> simp [UnpackedFloat.compare]

/-- What lies between finite numbers is finite.  Bounds on a value are
therefore enough to show that it did not overflow. -/
theorem isFinite_of_between (below : a ≤ b) (above : b ≤ c) (finite_a : a.isFinite = true)
    (finite_c : c.isFinite = true) : b.isFinite = true := by
  rw [le_iff_compare] at below above
  change a.toModel.unpack.isFinite = true at finite_a
  change c.toModel.unpack.isFinite = true at finite_c
  change b.toModel.unpack.isFinite = true
  revert below above finite_a finite_c
  generalize a.toModel.unpack = u, b.toModel.unpack = v, c.toModel.unpack = w
  rcases v with (_ | _) | _ | _ | _
  · cases u <;> simp [UnpackedFloat.compare, Ordering.isLE]
  · cases w <;> simp [UnpackedFloat.compare, Ordering.isLE]
  · cases u <;> simp [UnpackedFloat.compare]
  · simp
  · simp

/-! ### Order -/

/-- Where an unpacked number stands among the others, if it is a number:
infinities outermost, signs apart, and magnitudes by exponent and mantissa. -/
def rank : UnpackedFloat → Option (ℤ ×ₗ ℤ ×ₗ ℤ)
  | .notANumber => none
  | .infinity .negative => some (toLex (-2, toLex (0, 0)))
  | .finite .negative mantissa exponent _ => some (toLex (-1, toLex (-exponent, -mantissa)))
  | .zero _ => some (toLex (0, toLex (0, 0)))
  | .finite .positive mantissa exponent _ => some (toLex (1, toLex (exponent, mantissa)))
  | .infinity .positive => some (toLex (2, toLex (0, 0)))

/-- Only what is not a number has no rank. -/
theorem rank_eq_none_iff {u : UnpackedFloat} : rank u = none ↔ u.isNaN = true := by
  rcases u with (_ | _) | _ | _ | ⟨_ | _, _, _, _⟩ <;> simp [rank]

section Magnitudes

variable {e₁ e₂ : ℤ} {m₁ m₂ : ℕ}

/-- Comparing exponents first and mantissas then is comparing pairs from the left. -/
theorem isLE_then_compare :
    ((compare e₁ e₂).then (compare m₁ m₂)).isLE = true ↔ e₁ < e₂ ∨ e₁ = e₂ ∧ m₁ ≤ m₂ := by
  rcases lt_trichotomy e₁ e₂ with h | h | h
  · simp [compare_lt_iff_lt.2 h, h, Ordering.then]
  · simp [h, Ordering.then, Nat.isLE_compare]
  · simp [compare_gt_iff_gt.2 h, h.ne', h.not_gt, Ordering.then]

theorem isGE_then_compare :
    ((compare e₁ e₂).then (compare m₁ m₂)).isGE = true ↔ e₂ < e₁ ∨ e₁ = e₂ ∧ m₂ ≤ m₁ := by
  rcases lt_trichotomy e₁ e₂ with h | h | h
  · simp [compare_lt_iff_lt.2 h, h.ne, h.not_gt, Ordering.then]
  · simp [h, Ordering.then, Nat.isGE_compare]
  · simp [compare_gt_iff_gt.2 h, h, Ordering.then]

end Magnitudes

/-- The order of machine numbers is that of their ranks, so it is as good as
the order of whole numbers. -/
theorem le_iff_rank :
    a ≤ b ↔ ∃ r ∈ rank a.toModel.unpack, ∃ s ∈ rank b.toModel.unpack, r ≤ s := by
  rw [le_iff_compare]
  generalize a.toModel.unpack = u, b.toModel.unpack = v
  rcases u with (_ | _) | _ | _ | ⟨_ | _, _, _, _⟩ <;>
    rcases v with (_ | _) | _ | _ | ⟨_ | _, _, _, _⟩ <;>
    simp [UnpackedFloat.compare, rank, Prod.Lex.toLex_le_toLex,
      isLE_then_compare, isGE_then_compare]
  -- infinities compare by their signs
  all_goals rfl

/-- The order is transitive, although it is not reflexive. -/
theorem le_of_le_of_le (ab : a ≤ b) (bc : b ≤ c) : a ≤ c := by
  obtain ⟨r, hr, s, hs, rs⟩ := le_iff_rank.1 ab
  obtain ⟨s', hs', t, ht, st⟩ := le_iff_rank.1 bc
  cases Option.mem_unique hs hs'
  exact le_iff_rank.2 ⟨r, hr, t, ht, rs.trans st⟩

/-- Of two machine numbers that are numbers, one is at most the other.  Only
what is not a number spoils the order. -/
theorem le_or_le (ha : a.isNaN = false) (hb : b.isNaN = false) : a ≤ b ∨ b ≤ a := by
  obtain ⟨r, hr⟩ := Option.ne_none_iff_exists'.1
    (mt rank_eq_none_iff.1 (ne_true_of_eq_false ha))
  obtain ⟨s, hs⟩ := Option.ne_none_iff_exists'.1
    (mt rank_eq_none_iff.1 (ne_true_of_eq_false hb))
  rcases le_total r s with below | above
  · exact .inl (le_iff_rank.2 ⟨r, hr, s, hs, below⟩)
  · exact .inr (le_iff_rank.2 ⟨s, hs, r, hr, above⟩)

theorem le_self (number : a.isNaN = false) : a ≤ a :=
  (le_or_le number number).elim id id

/-- A sum that is a number has numbers for terms. -/
theorem isNaN_of_add (number : (a + b).isNaN = false) : a.isNaN = false ∧ b.isNaN = false := by
  have packed : (Float.Model.pack
      (UnpackedFloat.add .binary64 a.toModel.unpack b.toModel.unpack)).isNaN = false := number
  change a.toModel.unpack.isNaN = false ∧ b.toModel.unpack.isNaN = false
  revert packed
  generalize a.toModel.unpack = u, b.toModel.unpack = v
  have undefined : (Float.Model.pack .notANumber).isNaN = true := rfl
  cases u <;> cases v <;> simp [UnpackedFloat.add, undefined]

/-! ### Packing -/

theorem toBitVec_ofBitVec (bit : BitVec 1) : (Sign.ofBitVec bit).toBitVec = bit := by
  revert bit
  decide

section Fields

variable {bits : BitVec Format.binary64.numBits} {exponent : BitVec 11} {mantissa : BitVec 52}

/-- A bit pattern is put together again from its fields.  Sign, exponent and
mantissa are read off the bits and joined in the same order. -/
theorem packComponents_eq (exponent_eq : unpackExponent bits = exponent)
    (mantissa_eq : unpackMantissa bits = mantissa) :
    packComponents .binary64 (Sign.ofBitVec (unpackSign bits)) exponent mantissa = bits := by
  subst exponent_eq mantissa_eq
  rw [packComponents, toBitVec_ofBitVec]
  ext i inside
  simp only [unpackSign, unpackExponent, unpackMantissa, BitVec.getElem_append, BitVec.extractLsb,
    BitVec.getElem_cast, BitVec.getElem_extractLsb', Nat.zero_add]
  rw [← BitVec.getLsbD_eq_getElem]
  split
  · rfl
  · split <;> exact congrArg bits.getLsbD (by omega)

theorem toNat_leadingOne (mantissa : BitVec 52) :
    (1#1 ++ mantissa).toNat = 2 ^ 52 + mantissa.toNat := by
  rw [BitVec.toNat_append, ← Nat.shiftLeft_add_eq_or_of_lt mantissa.isLt]
  rfl

/-- With its leading one a mantissa has all the bits of the format. -/
theorem log2_leadingOne (mantissa : BitVec 52) :
    (1#1 ++ mantissa).toNat.log2 + 1 = Format.binary64.mantissaBits := by
  have bound := mantissa.isLt
  refine congrArg (· + 1) ?_
  rw [toNat_leadingOne, Nat.log2_eq_iff (by omega)]
  omega

theorem setWidth_leadingOne (mantissa : BitVec 52) :
    BitVec.setWidth 52 (1#1 ++ mantissa) = mantissa := by
  have bound := mantissa.isLt
  apply BitVec.eq_of_toNat_eq
  rw [BitVec.toNat_setWidth, toNat_leadingOne]
  omega

theorem log2_lt_of_ne_zero (nonzero : mantissa ≠ 0#52) : mantissa.toNat.log2 < 52 := by
  have positive : mantissa.toNat ≠ 0 := fun zero => nonzero (BitVec.eq_of_toNat_eq zero)
  exact (Nat.log2_lt positive).2 mantissa.isLt

theorem toNat_lt_of_ne_allOnes (ordinary : exponent ≠ -1#11) : exponent.toNat < 2047 := by
  have bound := exponent.isLt
  have last : exponent.toNat ≠ 2047 := fun last => ordinary (BitVec.eq_of_toNat_eq last)
  omega

/-- What a valid bit pattern stands for is packed into the same bits.  Machine
numbers are therefore equal when they unpack alike. -/
theorem pack_unpack (valid : Format.binary64.Valid bits) :
    UnpackedFloat.pack .binary64 (UnpackedFloat.unpack .binary64 bits) = bits := by
  rw [UnpackedFloat.unpack]
  split
  · next special =>
    split
    · next whole => exact packComponents_eq special whole
    · next fraction => exact (valid.eq_packedNaN special fraction).symm
  · next ordinary =>
    split
    · next small =>
      split
      · next zero => exact packComponents_eq small zero
      · next nonzero =>
        have short := (log2_lt_of_ne_zero nonzero).ne
        simp only [UnpackedFloat.pack, small, Format.exponentBias, Format.mantissaBits]
        rw [if_neg (by decide), if_neg (by omega)]
        exact packComponents_eq small (by rw [BitVec.ofNat_toNat, BitVec.setWidth_eq])
    · next normal =>
      have below := toNat_lt_of_ne_allOnes ordinary
      have biased (bias width : Int) : ((unpackExponent bits).toNat - (bias + width) + bias + width
          : Int).toNat = (unpackExponent bits).toNat := by omega
      simp only [UnpackedFloat.pack, biased]
      rw [if_neg (Nat.not_le.2 (Nat.succ_lt_succ below)),
        if_pos (log2_leadingOne _)]
      refine packComponents_eq ?_ ?_
      · rw [BitVec.ofNat_toNat, BitVec.setWidth_eq]
      · rw [BitVec.ofNat_toNat, setWidth_leadingOne]

end Fields

/-- A machine number is determined by what it unpacks to. -/
theorem ofModel_pack_unpack (a : Float) : Float.ofModel (.pack a.toModel.unpack) = a := by
  obtain ⟨bits, valid⟩ := a
  have packed := pack_unpack valid
  rw [Float.Model.pack, Float.Model.unpack]
  simp only [packed]

/-- The negative zero is neutral, also beside infinities and beside what is
not a number.  A sum may start from it. -/
theorem negativeZero_add (a : Float) : -0.0 + a = a := by
  have sum : UnpackedFloat.add .binary64 (.zero .negative) a.toModel.unpack = a.toModel.unpack := by
    cases a.toModel.unpack with
    | zero sign => cases sign <;> rfl
    | notANumber => rfl
    | infinity sign => rfl
    | finite sign mantissa exponent positive => rfl
  change Float.ofModel (.pack (UnpackedFloat.add .binary64 (.zero .negative) _)) = a
  rw [sum, ofModel_pack_unpack]

/-! ### Signs -/

/-- What a bit pattern stands for is finite unless all bits of the
exponent are set. -/
theorem isFinite_unpack_iff {bits : BitVec Format.binary64.numBits} :
    (UnpackedFloat.unpack .binary64 bits).isFinite = true ↔
      unpackExponent bits ≠ -1#11 := by
  rw [UnpackedFloat.unpack]
  split
  · next special => split <;> exact iff_of_false nofun (not_not_intro special)
  · next ordinary =>
    split
    · split <;> exact iff_of_true rfl ordinary
    · exact iff_of_true rfl ordinary

/-- The sign has no part in the packed exponent. -/
theorem unpackExponent_pack_neg (u : UnpackedFloat) :
    unpackExponent (UnpackedFloat.pack .binary64 u.neg) =
      unpackExponent (UnpackedFloat.pack .binary64 u) := by
  cases u with
  | notANumber => rfl
  | infinity sign =>
    simp only [UnpackedFloat.neg, UnpackedFloat.pack, packedInfinity,
      UnpackedFloat.unpackExponent_packComponents]
  | zero sign =>
    simp only [UnpackedFloat.neg, UnpackedFloat.pack, packedZero,
      UnpackedFloat.unpackExponent_packComponents]
  | finite sign mantissa exponent positive =>
    simp only [UnpackedFloat.neg, UnpackedFloat.pack, packedInfinity]
    split
    · simp only [UnpackedFloat.unpackExponent_packComponents]
    · split <;> simp only [UnpackedFloat.unpackExponent_packComponents]

theorem isFinite_neg (a : Float) : (-a).isFinite = a.isFinite := by
  obtain ⟨bits, valid⟩ := a
  rw [Bool.eq_iff_iff]
  change (UnpackedFloat.unpack .binary64 (UnpackedFloat.pack .binary64
      (UnpackedFloat.unpack .binary64 bits.toBitVec).neg)).isFinite = true ↔
    (UnpackedFloat.unpack .binary64 bits.toBitVec).isFinite = true
  rw [isFinite_unpack_iff, isFinite_unpack_iff, unpackExponent_pack_neg, pack_unpack valid]

end Fluxion.Binary64
