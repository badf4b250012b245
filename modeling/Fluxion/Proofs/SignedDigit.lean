import Fluxion.Proofs.Meaning

/-!
# A carrier of signed digits

Small numbers to run the readers and printers of formulas on.  They have no arithmetic, but for
signs and comparisons, and they know a negative zero.
-/

namespace Fluxion

/-- The whole numbers from minus nine to nine, zero with either sign.  It is
the smallest carrier on which a sign can be printed that is not meant. -/
structure SignedDigit where
  negative : Bool
  digit : Fin 10
  deriving DecidableEq

namespace SignedDigit

/-- The whole number that a signed digit stands for; both zeros stand for zero. -/
def value (c : SignedDigit) : Int := if c.negative then -c.digit.val else c.digit.val

/-- Formulas are printed and read without arithmetic, but for signs and
comparisons. -/
instance : Scalar SignedDigit where
  add a _ := a
  sub a _ := a
  mul a _ := a
  div a _ := a
  neg a := ⟨!a.negative, a.digit⟩
  beq a b := a.value == b.value
  ofInt n := ⟨decide (n < 0), Fin.ofNat 10 n.natAbs⟩
  pi := ⟨false, 3⟩
  e := ⟨false, 2⟩
  undefined := ⟨false, 0⟩
  pow a _ := a
  abs a := ⟨false, a.digit⟩
  exp a := a
  log a := a
  sqrt a := a
  sin a := a
  cos a := a
  tan a := a
  arcsin a := a
  arccos a := a
  arctan a := a
  less a b := decide (a.value < b.value)
  isFinite _ := true
  whole? a := some a.value

/-- A signed digit is written with its sign, and read without one. -/
instance : Numeral SignedDigit where
  text c := String.ofList ((if c.negative then ['-'] else []) ++ [Nat.digitChar c.digit.val])
  ofDigits
    | [c] => ⟨false, Fin.ofNat 10 (c.toNat - '0'.toNat)⟩
    | _ => ⟨false, 0⟩
  infinite? _ := none

theorem value_neg (c : SignedDigit) : (-c).value = -c.value := by
  obtain ⟨negative, digit⟩ := c
  cases negative with
  | false => rfl
  | true => exact (neg_neg _).symm

/-- A digit is read back. -/
theorem ofDigits_digitChar (digit : Fin 10) :
    (Numeral.ofDigits [Nat.digitChar digit.val] : SignedDigit) = ⟨false, digit⟩ := by
  revert digit
  decide

/-- Signed digits stand for their values. -/
noncomputable def exactReading : ExactReading SignedDigit where
  real c := c.value
  real_neg c := by
    rw [value_neg, Int.cast_neg]
  real_minusOne := by
    have value : (Scalar.ofInt (-1) : SignedDigit).value = -1 := by decide
    rw [value]
    norm_num
  isFinite_neg _ _ := rfl
  isNegative_iff c _ := by
    have zero : (Scalar.ofInt 0 : SignedDigit).value = 0 := by decide
    rw [Scalar.isNegative]
    show decide (c.value < (Scalar.ofInt 0 : SignedDigit).value) = true ↔ _
    rw [decide_eq_true_iff, zero, Int.cast_lt_zero]
  isMinusOne_iff c _ := by
    have minusOne : (Scalar.ofInt (-1) : SignedDigit).value = -1 := by decide
    rw [Scalar.isMinusOne]
    show (c.value == (Scalar.ofInt (-1) : SignedDigit).value) = true ↔ _
    rw [beq_iff_eq, minusOne]
    exact_mod_cast Iff.rfl
  ofDigits_nonneg digits _ := by
    have nonneg : 0 ≤ (Numeral.ofDigits digits : SignedDigit).value := by
      rcases digits with _ | ⟨c, _ | ⟨d, rest⟩⟩
      · exact le_rfl
      · exact Int.natCast_nonneg _
      · exact le_rfl
    exact_mod_cast nonneg
  text_eq c _ := by
    have decimal : ∀ digit : Fin 10, Text.isDigit (Nat.digitChar digit.val) = true := by decide
    obtain ⟨negative, digit⟩ := c
    refine ⟨[Nat.digitChar digit.val],
      ⟨_, List.cons_ne_nil _ _, by simpa using decimal digit, .inl rfl⟩, ?_⟩
    rw [ofDigits_digitChar]
    cases negative with
    | false => exact .inl ⟨String.toList_ofList, rfl⟩
    | true => exact .inr ⟨String.toList_ofList, Int.cast_neg _⟩

end SignedDigit

/-! ### Formulas over signed digits -/

/-- The damped formula `x - (-2*e^(-x))`, with a sign at the front of a group
and a power of `e`. -/
def damped : Expr SignedDigit :=
  .sub (.var variableName)
    (.mul (.const ⟨true, 2⟩) (.pow (.named .e) (.mul (.const ⟨true, 1⟩) (.var variableName))))

/-- The formula `(-0)^x`, which is printed without its parentheses. -/
def negativeZeroPower : Expr SignedDigit := .pow (.const ⟨true, 0⟩) (.var variableName)

end Fluxion
