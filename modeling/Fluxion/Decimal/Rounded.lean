import Fluxion.Decimal.Shortest

/-!
# Rounded decimals

A fixed number of places, or of significant digits.  The exact value of a machine number is
rounded once, to the nearest neighbour, and a half goes to the even one.
-/

namespace Fluxion.Decimal

/-- The quotient rounded to the nearest whole number, a half to the even one.
This is the rounding of machine arithmetic, over whole numbers. -/
def nearestEven (numerator denominator : Nat) : Nat :=
  let quotient := numerator / denominator
  match compare (2 * (numerator % denominator)) denominator with
  | .lt => quotient
  | .gt => quotient + 1
  | .eq => if quotient % 2 = 0 then quotient else quotient + 1

namespace Binary

/-- The number of units of `10 ^ s` nearest to the absolute value. -/
def roundedTo (value : Binary) (s : Int) : Nat :=
  let (left, right) := commonUnit s value.exponent
  nearestEven (value.significand * right) left

/-- The absolute value with `count` significant digits. -/
def significantDigits (value : Binary) (count : Nat) : Digits :=
  if value.significand = 0 then ⟨0, 0⟩
  else
    let s := value.decimalLength - Int.ofNat count
    ⟨value.roundedTo s, s⟩

end Binary

end Fluxion.Decimal
