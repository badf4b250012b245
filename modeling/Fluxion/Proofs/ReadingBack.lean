import Fluxion.Proofs.ExactValues
import Fluxion.Proofs.Meaning
import Fluxion.Proofs.ShortestDecimals

/-!
# Numbers read back

The text of a finite number is read back as that number (`Binary64.exists_text`), but for its sign,
which is not part of a numeral.  So machine numbers can be read as the real numbers they stand for
(`Binary64.exactReading`), with all that was shown about formulas over carriers of that kind.
-/

namespace Fluxion

open Text (isDigit natOfDigits)

namespace Decimal

/-! ### Digits and points -/

theorem isDigit_of_mem_toDigits {n : ℕ} {c : Char} (member : c ∈ Nat.toDigits 10 n) :
    isDigit c = true := by
  have digit := Nat.isDigit_of_mem_toDigits (by decide) (by decide) member
  simpa [Char.isDigit, isDigit, Char.le_def] using digit

theorem isDigit_of_mem_zeros {count : ℕ} {c : Char} (member : c ∈ List.replicate count '0') :
    isDigit c = true := by
  rw [List.eq_of_mem_replicate member]
  decide

theorem toList_zeros (count : ℕ) : ("".pushn '0' count).toList = List.replicate count '0' := by
  induction count with
  | zero => rfl
  | succ count ih =>
    change (("".pushn '0' count).push '0').toList = _
    rw [String.toList_push, ih, List.replicate_succ']

/-- A whole number is written as its digits to the base ten. -/
theorem toList_toString (n : ℕ) : (toString n).toList = Nat.toDigits 10 n := Nat.toList_repr

theorem length_toString (n : ℕ) : (toString n).length = (Nat.toDigits 10 n).length := by
  rw [← String.length_toList, toList_toString]

/-- The digits of a whole number denote it. -/
theorem natOfDigits_toDigits (n : ℕ) : natOfDigits (Nat.toDigits 10 n) = n :=
  Nat.ofDigitChars_ten_toDigits

theorem natOfDigits_zeros_append (count : ℕ) (text : List Char) :
    natOfDigits (List.replicate count '0' ++ text) = natOfDigits text := by
  change Nat.ofDigitChars 10 (List.replicate count '0' ++ text) 0 = Nat.ofDigitChars 10 text 0
  rw [Nat.ofDigitChars_append, Nat.ofDigitChars_replicate_zero, mul_zero]

theorem natOfDigits_append_zeros (text : List Char) (count : ℕ) :
    natOfDigits (text ++ List.replicate count '0') = 10 ^ count * natOfDigits text := by
  change Nat.ofDigitChars 10 (text ++ List.replicate count '0') 0 =
    10 ^ count * Nat.ofDigitChars 10 text 0
  rw [Nat.ofDigitChars_append, Nat.ofDigitChars_replicate_zero]

/-! ### Positional notation -/

/-- The parts of a decimal in positional notation, before and behind the
point, and the number that they stand for. -/
structure Parts (text whole fraction : List Char) (number : ℚ) : Prop where
  whole_ne_nil : whole ≠ []
  digits : ∀ c ∈ whole ++ fraction, isDigit c = true
  text_eq : text = whole ∧ fraction = [] ∨ text = whole ++ '.' :: fraction
  number_eq : (natOfDigits (whole ++ fraction) : ℚ) * 10 ^ (-(fraction.length : ℤ)) = number

section Layout

variable (n k : ℕ)

/-- With an exponent from zero up, zeros are written behind the digits and
there is no point. -/
theorem parts_of_whole : Parts (Layout.plain.positionalText ⟨n, Int.ofNat k⟩).toList
    (Nat.toDigits 10 n ++ List.replicate k '0') [] (Digits.value ⟨n, Int.ofNat k⟩) where
  whole_ne_nil := List.append_ne_nil_of_left_ne_nil Nat.toDigits_ne_nil _
  digits c member := by
    rw [List.append_nil, List.mem_append] at member
    exact member.elim isDigit_of_mem_toDigits isDigit_of_mem_zeros
  text_eq := by
    refine .inl ⟨?_, rfl⟩
    change (toString n ++ "".pushn '0' k ++ "").toList = _
    rw [String.append_empty, String.toList_append, toList_zeros, toList_toString]
  number_eq := by
    rw [List.append_nil, natOfDigits_append_zeros, natOfDigits_toDigits, Digits.value]
    simp [mul_comm]

/-- With fewer places than digits, the point stands among the digits. -/
theorem parts_of_inner (inner : k + 1 < (toString n).length) :
    Parts (Layout.plain.positionalText ⟨n, Int.negSucc k⟩).toList
      ((Nat.toDigits 10 n).take ((toString n).length - (k + 1)))
      ((Nat.toDigits 10 n).drop ((toString n).length - (k + 1)))
      (Digits.value ⟨n, Int.negSucc k⟩) where
  whole_ne_nil := by
    rw [length_toString] at inner
    refine List.ne_nil_of_length_pos ?_
    rw [length_toString, List.length_take]
    omega
  digits c member := by
    rw [List.take_append_drop] at member
    exact isDigit_of_mem_toDigits member
  text_eq := by
    refine .inr ?_
    simp only [Layout.positionalText]
    rw [if_pos inner, String.toList_append, String.toList_append, String.Slice.toString_eq,
      String.toList_copy_take, String.toList_copy_drop, toList_toString, List.append_assoc]
    rfl
  number_eq := by
    have places : ((Nat.toDigits 10 n).drop ((toString n).length - (k + 1))).length = k + 1 := by
      rw [length_toString] at inner ⊢
      rw [List.length_drop]
      omega
    rw [List.take_append_drop, natOfDigits_toDigits, places]
    rfl

/-- With as many places as digits or more, zeros are written between the point
and the digits. -/
theorem parts_of_outer (outer : ¬k + 1 < (toString n).length) :
    Parts (Layout.plain.positionalText ⟨n, Int.negSucc k⟩).toList ['0']
      (List.replicate (k + 1 - (toString n).length) '0' ++ Nat.toDigits 10 n)
      (Digits.value ⟨n, Int.negSucc k⟩) where
  whole_ne_nil := List.cons_ne_nil _ _
  digits c member := by
    rw [List.mem_append, List.mem_append] at member
    obtain zero | zeros | digit := member
    · rw [List.mem_singleton.1 zero]
      decide
    · exact isDigit_of_mem_zeros zeros
    · exact isDigit_of_mem_toDigits digit
  text_eq := by
    refine .inr ?_
    simp only [Layout.positionalText]
    rw [if_neg outer, String.toList_append, String.toList_append, toList_zeros, toList_toString,
      List.append_assoc]
    rfl
  number_eq := by
    have places : (List.replicate (k + 1 - (toString n).length) '0' ++ Nat.toDigits 10 n).length =
        k + 1 := by
      rw [length_toString] at outer ⊢
      rw [List.length_append, List.length_replicate]
      omega
    have zero : ['0'] = List.replicate 1 '0' := rfl
    rw [zero, natOfDigits_zeros_append, natOfDigits_zeros_append, natOfDigits_toDigits, places]
    rfl

end Layout

/-- Positional notation has parts. -/
theorem exists_parts (number : Digits) :
    ∃ whole fraction, Parts (Layout.plain.positionalText number).toList whole fraction
      number.value := by
  obtain ⟨n, exponent⟩ := number
  cases exponent with
  | ofNat k => exact ⟨_, _, parts_of_whole n k⟩
  | negSucc k =>
    by_cases inner : k + 1 < (toString n).length
    · exact ⟨_, _, parts_of_inner n k inner⟩
    · exact ⟨_, _, parts_of_outer n k inner⟩

namespace Parts

variable {text whole fraction : List Char} {number : ℚ} (parts : Parts text whole fraction number)

include parts

theorem isDecimal : IsDecimal text := by
  refine ⟨whole, parts.whole_ne_nil,
    fun c member => parts.digits c (List.mem_append_left _ member), ?_⟩
  obtain ⟨same, -⟩ | same := parts.text_eq
  · exact .inl same
  · exact .inr ⟨fraction, fun c member => parts.digits c (List.mem_append_right _ member), same⟩

/-- A text with these parts is read as its digits without the point, scaled by
the places behind it. -/
theorem floatOfDigits_eq :
    floatOfDigits text =
      nearestFloat (natOfDigits (whole ++ fraction)) (-(fraction.length : ℤ)) := by
  have before : ∀ c ∈ whole, decide (c ≠ '.') = true := by
    intro c member
    have digit := parts.digits c (List.mem_append_left _ member)
    refine decide_eq_true fun point => ?_
    rw [point] at digit
    cases digit
  unfold floatOfDigits
  obtain ⟨rfl, rfl⟩ | rfl := parts.text_eq
  · rw [List.takeWhile_eq_self_iff.2 before, List.dropWhile_eq_nil_iff.2 before]
    rfl
  · rw [List.takeWhile_append_of_pos before, List.dropWhile_append_of_pos before,
      List.takeWhile_cons_of_neg (by decide), List.dropWhile_cons_of_neg (by decide),
      List.append_nil]
    rfl

end Parts

/-! ### Numbers without their sign -/

variable {c : Float} {value : Binary}

/-- The text of a number without its sign is read back as that number. -/
theorem floatOfDigits_shortest (read : Reading.ofFloat c = .finite value)
    (unsigned : value.negative = false) :
    floatOfDigits (Layout.plain.positionalText (value.shortest .upward)).toList = c := by
  obtain zero | positive := value.significand.eq_zero_or_pos
  · have written : value.shortest .upward = ⟨0, 0⟩ := by rw [Binary.shortest, if_pos zero]
    have unpacked := Reading.unpack_eq_zero read zero
    rw [unsigned] at unpacked
    rw [written, ← Binary64.ofModel_pack_unpack c, unpacked]
    exact (parts_of_whole 0 0).floatOfDigits_eq
  · obtain ⟨whole, fraction, parts⟩ := exists_parts (value.shortest .upward)
    rw [parts.floatOfDigits_eq]
    have near := Binary.near_shortest positive.ne' .upward
    rw [← parts.number_eq] at near
    refine nearestFloat_eq_of_near read unsigned positive ?_ near
    by_contra nothing
    rw [Nat.eq_zero_of_not_pos nothing, Nat.cast_zero, zero_mul] at near
    exact lt_irrefl _ (near.pos positive.ne')

end Decimal

/-! ### Numbers with their sign -/

namespace Binary64

open Decimal (Reading Layout)

/-- The text of a finite number is digits that are read back as that number,
after a minus sign as its opposite. -/
theorem exists_text {c : Float} (finite : c.isFinite = true) :
    ∃ digits, IsDecimal digits ∧
      ((Numeral.text c).toList = digits ∧ Numeral.ofDigits digits = c ∨
        (Numeral.text c).toList = '-' :: digits ∧ Numeral.ofDigits digits = -c) := by
  obtain ⟨value, read⟩ := exists_read finite
  obtain ⟨whole, fraction, parts⟩ := Decimal.exists_parts (value.shortest .upward)
  have written : (Numeral.text c).toList = (Layout.signText value.negative).toList ++
      (Layout.plain.positionalText (value.shortest .upward)).toList := by
    change (Layout.plain.text c).toList = _
    rw [Layout.text, read, ← String.toList_append]
    rfl
  refine ⟨_, parts.isDecimal, ?_⟩
  cases signed : value.negative with
  | false =>
    rw [written, signed]
    exact .inl ⟨rfl, Decimal.floatOfDigits_shortest read signed⟩
  | true =>
    have opposite : Reading.ofFloat (-c) = .finite { value with negative := false } := by
      rw [Reading.ofFloat_neg, read, Reading.negated, signed]
      rfl
    have back := Decimal.floatOfDigits_shortest opposite rfl
    rw [written, signed]
    exact .inr ⟨rfl, back⟩

/-- Machine numbers are read as the numbers they stand for. -/
noncomputable def exactReading [Platform] : ExactReading Float where
  real c := exact c
  real_neg c := by rw [exact_neg, Rat.cast_neg]
  real_minusOne := by
    change ((exact (Float.ofInt (-1)) : ℚ) : ℝ) = -1
    rw [exact_ofInt_minusOne, Rat.cast_neg, Rat.cast_one]
  isFinite_neg c finite := (isFinite_neg c).trans finite
  isNegative_iff c finite := by rw [isNegative_iff_exact finite, Rat.cast_lt_zero]
  isMinusOne_iff c finite := by
    rw [isMinusOne_iff_exact finite]
    exact_mod_cast Iff.rfl
  ofDigits_nonneg digits _ := by
    exact_mod_cast exact_nonneg (Decimal.isPlus_nearestFloat _ _)
  text_eq c finite := by
    obtain ⟨digits, decimal, ⟨text, same⟩ | ⟨text, same⟩⟩ := exists_text finite
    · exact ⟨digits, decimal, .inl ⟨text, by rw [same]⟩⟩
    · exact ⟨digits, decimal, .inr ⟨text, by rw [same, exact_neg, Rat.cast_neg, neg_neg]⟩⟩

end Binary64

end Fluxion
