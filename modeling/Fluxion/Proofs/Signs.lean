import Fluxion.Expr.Text
import Fluxion.Proofs.Binary64
import Fluxion.Proofs.Messages

/-!
# Signs at the front of a text

Parentheses are placed by tests on trees (`Expr.leadingMinus`, `Expr.precedence`) that ask whether
constants are below zero.  The minus sign of a constant, though, is written for its sign bit
(`Numeral.signed_text_iff`).  The two differ for the negative zero: `(-0)^x` is written `-0^x`,
which reads as the opposite of a power.  They differ nowhere else: in no sum, product or quotient
with a sign at its left end (`Expr.leadingMinus_iff`) and so at no operand, as operands are in
parentheses where the test finds a sign (`Expr.Operand.text_eq`).

The sign bit is found in the fields of the bit pattern that a number is written from, and in the
unpacked number that comparisons are made with; `Decimal.Reading.ofFloat_eq` says that the two are
the same number.
-/

namespace Fluxion

open Float.Model (UnpackedFloat Format)
open Float.Model.UnpackedFloat (Sign unpackSign unpackExponent unpackMantissa)

/-! ### The fields of a machine number -/

namespace Binary64

section Fields

variable (bits : BitVec Format.binary64.numBits)

theorem toNat_unpackExponent :
    (unpackExponent bits).toNat = bits.toNat / 2 ^ 52 % 2 ^ 11 := by
  rw [unpackExponent, BitVec.toNat_cast, BitVec.extractLsb, BitVec.extractLsb'_toNat,
    Nat.shiftRight_eq_div_pow]
  rfl

theorem toNat_unpackMantissa : (unpackMantissa bits).toNat = bits.toNat % 2 ^ 52 := by
  rw [unpackMantissa, BitVec.toNat_cast, BitVec.extractLsb, BitVec.extractLsb'_toNat,
    Nat.shiftRight_zero]
  rfl

theorem toNat_unpackSign : (unpackSign bits).toNat = bits.toNat / 2 ^ 63 := by
  have bound := bits.isLt
  rw [unpackSign, BitVec.toNat_cast, BitVec.extractLsb, BitVec.extractLsb'_toNat,
    Nat.shiftRight_eq_div_pow]
  change bits.toNat / 2 ^ 63 % 2 ^ 1 = _
  change bits.toNat < 2 ^ 64 at bound
  omega

/-- The sign is the first bit. -/
theorem sign_eq :
    (Sign.ofBitVec (unpackSign bits) == .negative) = decide (2 ^ 63 ≤ bits.toNat) := by
  have bound : bits.toNat < 2 ^ 64 := bits.isLt
  have first := toNat_unpackSign bits
  rw [Sign.ofBitVec]
  split
  · next clear =>
    rw [clear] at first
    change 0 = bits.toNat / 2 ^ 63 at first
    exact (decide_eq_false (by omega)).symm
  · next set =>
    have nonzero : (unpackSign bits).toNat ≠ 0 := fun zero => set (BitVec.eq_of_toNat_eq zero)
    exact (decide_eq_true (by omega)).symm

end Fields

end Binary64

namespace Decimal.Reading

/-- What an unpacked number stands for. -/
def ofUnpacked : UnpackedFloat → Reading
  | .notANumber => .notANumber
  | .infinity sign => .infinite (sign == .negative)
  | .zero sign => .finite ⟨sign == .negative, 0, leastExponent⟩
  | .finite sign mantissa exponent _ => .finite ⟨sign == .negative, mantissa, exponent⟩

theorem ofUnpacked_unpack (bits : BitVec Format.binary64.numBits) :
    ofUnpacked (UnpackedFloat.unpack .binary64 bits) =
      if bits.toNat / 2 ^ 52 % 2 ^ 11 = 2047 then
        if bits.toNat % 2 ^ 52 = 0 then .infinite (decide (2 ^ 63 ≤ bits.toNat)) else .notANumber
      else if bits.toNat / 2 ^ 52 % 2 ^ 11 = 0 then
        .finite ⟨decide (2 ^ 63 ≤ bits.toNat), bits.toNat % 2 ^ 52, leastExponent⟩
      else
        .finite ⟨decide (2 ^ 63 ≤ bits.toNat), 2 ^ 52 + bits.toNat % 2 ^ 52,
          Int.ofNat (bits.toNat / 2 ^ 52 % 2 ^ 11) - 1075⟩ := by
  rw [← Binary64.sign_eq, ← Binary64.toNat_unpackMantissa, ← Binary64.toNat_unpackExponent,
    UnpackedFloat.unpack]
  have largest : (unpackExponent bits).toNat = 2047 ↔ unpackExponent bits = -1#11 := by
    rw [← BitVec.toNat_inj]
    rfl
  have least : (unpackExponent bits).toNat = 0 ↔ unpackExponent bits = 0#11 := by
    rw [← BitVec.toNat_inj]
    rfl
  have whole : (unpackMantissa bits).toNat = 0 ↔ unpackMantissa bits = 0#52 := by
    rw [← BitVec.toNat_inj]
    rfl
  split
  · next special =>
    rw [if_pos (largest.2 special)]
    split
    · next empty => rw [if_pos (whole.2 empty), ofUnpacked]
    · next fraction => rw [if_neg (mt whole.1 fraction), ofUnpacked]
  · next ordinary =>
    rw [if_neg (mt largest.1 ordinary)]
    split
    · next small =>
      rw [if_pos (least.2 small)]
      split
      · next zero =>
        rw [whole.2 zero, ofUnpacked]
      · rw [small, ofUnpacked]
        rfl
    · next normal =>
      rw [if_neg (mt least.1 normal), ofUnpacked, ← Binary64.toNat_leadingOne]
      rfl

/-- Reading a machine number is reading what it unpacks to, so the reader of
bits and the model of machine numbers agree. -/
theorem ofFloat_eq (a : Float) : ofFloat a = ofUnpacked a.toModel.unpack :=
  (ofUnpacked_unpack a.toBits.toBitVec).symm

end Decimal.Reading

/-! ### Numerals with a sign -/

/-- The text begins with a minus sign, which is what a grouping rule should
know of an operand. -/
def Signed (text : String) : Prop := text.toList.head? = some '-'

theorem signed_append {text rest : String} : Signed (text ++ rest) ↔
    Signed text ∨ text = "" ∧ Signed rest := by
  rw [Signed, String.toList_append, List.head?_append]
  cases front : text.toList with
  | nil =>
    have empty : text = "" := String.toList_eq_nil_iff.1 front
    simp [empty, Signed]
  | cons c others =>
    have nonempty : text ≠ "" := by
      rintro rfl
      cases front
    simp [Signed, front, nonempty]

/-- A text is signed as it begins, if what follows is not. -/
theorem signed_append_iff {text rest : String} (unsigned : ¬Signed rest) :
    Signed (text ++ rest) ↔ Signed text := by
  rw [signed_append, or_iff_left fun behind => unsigned behind.2]

/-- A sign at the front of a text stands in front of any operator in it. -/
theorem signed_front {left operator right : String}
    (unsigned : operator ≠ "" ∧ ¬Signed operator) (signed : Signed (left ++ operator ++ right)) :
    Signed left := by
  rw [String.append_assoc, signed_append, signed_append] at signed
  obtain front | ⟨-, front | ⟨empty, -⟩⟩ := signed
  · exact front
  · exact absurd front unsigned.2
  · exact absurd empty unsigned.1

/-- It is decided by looking at the first character. -/
instance (text : String) : Decidable (Signed text) := inferInstanceAs (Decidable (_ = _))

namespace Decimal.Layout

/-- Digits and points have no sign among them. -/
theorem not_signed_positionalText (number : Digits) : ¬Signed (plain.positionalText number) := by
  have unsigned : Uniform (· ≠ '-') (plain.positionalText number) := by
    refine Uniform.positionalText (fun c digit same => ?_) (by decide) number
    rw [same] at digit
    cases digit
  intro signed
  exact unsigned '-' (List.mem_of_head? signed) rfl

theorem signed_signText_append {negative : Bool} {text : String} (unsigned : ¬Signed text) :
    Signed (signText negative ++ text) ↔ negative = true := by
  rw [signed_append_iff unsigned]
  cases negative <;> decide

end Decimal.Layout

namespace Numeral

open Decimal (Reading)
open Decimal.Layout (not_signed_positionalText signed_signText_append)

variable {c : Float}

/-- The negative zero is told from the positive one by what it unpacks to. -/
theorem eq_negativeZero_iff : c = -0.0 ↔ c.toModel.unpack = .zero .negative := by
  constructor
  · rintro rfl
    rfl
  · intro unpacked
    rw [← Binary64.ofModel_pack_unpack c, unpacked]
    rfl

variable [Platform]

theorem isNegative_iff : Scalar.isNegative c = true ↔
    c.toModel.unpack.compare (.zero .positive) = some .lt := by
  rw [Scalar.isNegative]
  change decide (c < Float.ofInt 0) = true ↔ _
  rw [decide_eq_true_iff, Binary64.lt_iff_compare]
  rfl

/-- A minus sign is written for the negative numbers and for the negative zero. -/
theorem signed_text_iff : Signed (Numeral.text c) ↔ Scalar.isNegative c = true ∨ c = -0.0 := by
  rw [isNegative_iff, eq_negativeZero_iff]
  change Signed (Decimal.Layout.plain.text c) ↔ _
  rw [Decimal.Layout.text, Reading.ofFloat_eq]
  cases c.toModel.unpack with
  | notANumber =>
    refine iff_of_false (show ¬Signed "NaN" by decide) ?_
    simp [UnpackedFloat.compare]
  | infinity sign =>
    refine (signed_signText_append (by decide)).trans ?_
    cases sign <;> simp [UnpackedFloat.compare]
  | zero sign =>
    refine (signed_signText_append (not_signed_positionalText _)).trans ?_
    cases sign <;> simp [UnpackedFloat.compare]
  | finite sign mantissa exponent positive =>
    refine (signed_signText_append (not_signed_positionalText _)).trans ?_
    cases sign <;> simp [UnpackedFloat.compare]

/-- The negative zero is not below zero. -/
theorem isNegative_negativeZero : Scalar.isNegative (-0.0 : Float) = false := by
  rw [Bool.eq_false_iff, ne_eq, isNegative_iff, eq_negativeZero_iff.1 rfl]
  decide

theorem isNegative_of_isMinusOne (minusOne : Scalar.isMinusOne c = true) :
    Scalar.isNegative c = true := by
  have equal := Binary64.beq_iff_compare.1 minusOne
  obtain ⟨_, _, _, unpacked⟩ : ∃ mantissa exponent positive, (Float.ofInt (-1)).toModel.unpack =
    .finite .negative mantissa exponent positive := ⟨_, _, _, rfl⟩
  rw [isNegative_iff]
  revert equal
  change c.toModel.unpack.compare (Float.ofInt (-1)).toModel.unpack = _ → _
  rw [unpacked]
  rcases c.toModel.unpack with (_ | _) | _ | _ | ⟨_ | _, _, _, _⟩ <;> simp [UnpackedFloat.compare]

end Numeral

/-! ### Formulas with a sign -/

namespace Expr

/-- The part that the text of the tree begins with, but for a parenthesis.
Only there a sign can come to stand in front. -/
def leftmost {K : Type} : Expr K → Expr K
  | add u _ | sub u _ | mul u _ | div u _ | pow u _ => u.leftmost
  | var name => var name
  | const c => const c
  | named c => named c
  | call f u => call f u

/-- A part with a sign in front that tests for signs do not see: the negative
zero, which is not below zero, and a name that is not one. -/
def Unseen : Expr Float → Prop
  | const c => c = -0.0
  | var name => Signed name
  | _ => False

/-- It is decided by the root of the tree. -/
instance : DecidablePred Unseen
  | const c => inferInstanceAs (Decidable (c = -0.0))
  | var name => inferInstanceAs (Decidable (Signed name))
  | named _ | add _ _ | sub _ _ | mul _ _ | div _ _ | pow _ _ | call _ _ => isFalse id

theorem signed_grouped {group : Bool} {text : String} :
    Signed (grouped group text) ↔ group = false ∧ Signed text := by
  cases group with
  | false => simp [grouped]
  | true =>
    rw [grouped, if_pos rfl, String.append_assoc, signed_append]
    simp
    decide

section Texts

variable [Platform]

/-- The operands whose own sign would stand next to an operator: the base of a
power, and whatever stands behind an operator.  The texts are those before and
after the operand. -/
inductive Operand : Expr Float → String → Expr Float → String → Prop
  | summand {u v : Expr Float} (kept : v.negated? = none) :
      Operand (add u v) (u.text ++ " + ") v ""
  /-- a term with a sign is subtracted without it -/
  | turned {u v opposite : Expr Float} (turned : v.negated? = some opposite) :
      Operand (add u v) (u.text ++ " - ") opposite ""
  | subtrahend {u v : Expr Float} : Operand (sub u v) (u.text ++ " - ") v ""
  /-- a factor of minus one is a sign -/
  | negated {u v : Expr Float} (minusOne : u.isMinusOne = true) : Operand (mul u v) "-" v ""
  | factor {u v : Expr Float} (ordinary : u.isMinusOne = false) :
      Operand (mul u v) (grouped (decide (u.precedence ≤ 1)) u.text ++ "*") v ""
  | divisor {u v : Expr Float} :
      Operand (div u v) (grouped (decide (u.precedence ≤ 1)) u.text ++ "/") v ""
  | base {u v : Expr Float} : Operand (pow u v)
      "" u ("^" ++ grouped (decide (v.precedence < 4) || v.leadingMinus) v.text)
  | exponent {u v : Expr Float} : Operand (pow u v)
      (grouped (decide (u.precedence < 5) || u.leadingMinus) u.text ++ "^") v ""

variable {e u v o : Expr Float} {before after : String}

theorem signed_of_isMinusOne (minusOne : u.isMinusOne = true) : Signed u.text := by
  cases u with
  | const c =>
    rw [text, Numeral.signed_text_iff]
    exact .inl (Numeral.isNegative_of_isMinusOne minusOne)
  | _ => cases minusOne

/-- The test for a sign in front misses the unseen signs and no others. -/
theorem leadingMinus_iff (signed : Signed e.text) :
    e.leadingMinus = true ↔ ¬Unseen e.leftmost := by
  induction e with
  | var name =>
    rw [text] at signed
    exact iff_of_false Bool.false_ne_true (not_not_intro signed)
  | const c =>
    rw [text, Numeral.signed_text_iff] at signed
    rw [leadingMinus, leftmost, Unseen]
    constructor
    · rintro negative rfl
      rw [Numeral.isNegative_negativeZero] at negative
      cases negative
    · exact signed.resolve_right
  | named c =>
    rw [text] at signed
    cases c <;> exact absurd signed (by decide)
  | call f u =>
    rw [text, String.append_assoc] at signed
    cases f <;> exact absurd (signed_front (by decide) signed) (by decide)
  | add u v ihu =>
    rw [text] at signed
    split at signed
    · exact ihu (signed_front (by decide) signed)
    · exact ihu (signed_front (by decide) signed)
  | sub u v ihu =>
    rw [text] at signed
    exact ihu (signed_front (by decide) signed)
  | mul u v ihu =>
    rw [text] at signed
    split at signed
    · next minusOne => exact ihu (signed_of_isMinusOne minusOne)
    · exact ihu (signed_grouped.1 (signed_front (by decide) signed)).2
  | div u v ihu =>
    rw [text] at signed
    exact ihu (signed_grouped.1 (signed_front (by decide) signed)).2
  | pow u v ihu =>
    rw [text] at signed
    obtain ⟨bare, signedBase⟩ := signed_grouped.1 (signed_front (by decide) signed)
    -- a base without parentheses has passed the test, so its sign is not seen either
    have missed : u.leadingMinus = false := (Bool.or_eq_false_iff.1 bare).2
    refine iff_of_false Bool.false_ne_true (not_not_intro (of_not_not fun seen => ?_))
    have found := (ihu signedBase).2 seen
    rw [missed] at found
    cases found

/-- An operand is in parentheses where it binds too weakly and where the test
finds a sign in front of it. -/
theorem Operand.text_eq (operand : Operand e before o after) :
    ∃ weak, e.text = before ++ grouped (weak || o.leadingMinus) o.text ++ after := by
  cases operand with
  | summand kept =>
    refine ⟨false, ?_⟩
    rw [text, String.append_empty, Bool.false_or]
    split
    · next turned =>
      rw [kept] at turned
      cases turned
    · rfl
  | turned turned =>
    refine ⟨decide (o.precedence ≤ 1), ?_⟩
    rw [text, String.append_empty]
    split
    · next same =>
      cases same.symm.trans turned
      rfl
    · next kept =>
      rw [kept] at turned
      cases turned
  | subtrahend =>
    refine ⟨decide (o.precedence ≤ 1), ?_⟩
    rw [text, String.append_empty]
  | negated minusOne =>
    refine ⟨decide (o.precedence ≤ 1), ?_⟩
    rw [text, String.append_empty, if_pos minusOne]
  | factor ordinary =>
    refine ⟨decide (o.precedence ≤ 1), ?_⟩
    rw [text, String.append_empty, if_neg (ne_true_of_eq_false ordinary)]
  | divisor =>
    refine ⟨decide (o.precedence ≤ 2), ?_⟩
    rw [text, String.append_empty]
  | base =>
    refine ⟨decide (o.precedence < 5), ?_⟩
    rw [text, String.empty_append, String.append_assoc]
  | exponent =>
    refine ⟨decide (o.precedence < 4), ?_⟩
    rw [text, String.append_empty]

/-- A formula whose text starts with a minus sign passes the test for one, and
an operand whose text does is in parentheses, unless the sign belongs to a
negative zero or to what should be a name.  The test finds neither of those
two.  All other signs in front are those of negative constants, which the test
meets at the left end of the tree. -/
theorem sign_seen (e : Expr Float) :
    (Signed e.text → (e.leadingMinus = true ↔ ¬Unseen e.leftmost)) ∧
      ∀ {before after : String} {o : Expr Float}, Operand e before o after →
        ∃ group, e.text = before ++ grouped group o.text ++ after ∧
          (Signed o.text → ¬Unseen o.leftmost → group = true) := by
  refine ⟨leadingMinus_iff, fun operand => ?_⟩
  obtain ⟨weak, shown⟩ := operand.text_eq
  refine ⟨weak || _, shown, ?_⟩
  intro signed seen
  rw [(leadingMinus_iff signed).2 seen, Bool.or_true]

end Texts

/-- The signs of `-2*x - (-3*y)` are seen, that of `-0^x` is not. -/
theorem sign_seen_in_difference :
    let left : Expr Float := mul (const (-2.0)) (var "x")
    let right : Expr Float := mul (const (-3.0)) (var "y")
    let power : Expr Float := pow (const (-0.0)) (var "x")
    ((sub left right).leadingMinus = true ∧
        (sub left right).text = left.text ++ " - " ++ ("(" ++ right.text ++ ")")) ∧
      power.text = "-0^x" ∧ power.leadingMinus = false := by
  intro left right power
  refine ⟨⟨?_, ?_⟩, by decide +kernel, ?_⟩
  · exact ((sign_seen (sub left right)).1 (by decide +kernel)).2 (by decide +kernel)
  · obtain ⟨group, shown, found⟩ := (sign_seen (sub left right)).2 .subtrahend
    rwa [found (by decide +kernel) (by decide +kernel), String.append_empty] at shown
  · have missed := (sign_seen power).1 (by decide +kernel)
    exact Bool.eq_false_iff.2 (mt missed.1 (not_not_intro rfl))

end Expr

end Fluxion
