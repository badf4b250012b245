/-!
# Binary numbers

A machine number is a sign, a whole significand and a power of two, or it is infinite, or it is
not a number.  Everything that writes or classifies numbers starts from this exact reading, so
that no rounding happens before a rule says how to round.
-/

namespace Fluxion.Decimal

/-- The number `± significand · 2 ^ exponent`.  Zero has a sign like every
other number, so that both zeros can be written and told apart. -/
structure Binary where
  negative : Bool
  significand : Nat
  exponent : Int
  deriving DecidableEq, Repr

/-- What the 64 bits of a machine number stand for: an infinity, no number, or
a finite number with sign, significand and exponent.  The reading is exact. -/
inductive Reading where
  | finite (value : Binary)
  | infinite (negative : Bool)
  | notANumber
  deriving DecidableEq, Repr

/-- A power of two. -/
def twoTo (k : Nat) : Nat := Nat.pow 2 k

/-- A power of ten. -/
def tenTo (k : Nat) : Nat := Nat.pow 10 k

/-- The exponent shared by the smallest numbers.  Numbers of full width have
it too, so magnitudes grow evenly through the change. -/
def leastExponent : Int := -1074

/-- Reads the sign, eleven exponent bits and 52 fraction bits of a machine number.
Below the normal numbers the leading one is missing, and the exponent is that of the
smallest normal ones.  The greatest exponent is for what is not finite. -/
def Reading.ofFloat (value : Float) : Reading :=
  let bits := value.toBits.toNat
  let negative := decide (twoTo 63 ≤ bits)
  let biased := bits / twoTo 52 % twoTo 11
  let fraction := bits % twoTo 52
  if biased = 2047 then
    if fraction = 0 then .infinite negative else .notANumber
  else if biased = 0 then
    .finite ⟨negative, fraction, leastExponent⟩
  else
    .finite ⟨negative, twoTo 52 + fraction, Int.ofNat biased - 1075⟩

namespace Binary

/-- The absolute value as a quotient of whole numbers, which all exact decimal
work starts from.  The divisor is a power of two and never zero. -/
def quotient (value : Binary) : Nat × Nat :=
  match value.exponent with
  | .ofNat k => (value.significand * twoTo k, 1)
  | .negSucc k => (value.significand, twoTo (k + 1))

/-- The integer that the number is, if it is whole. -/
def whole? (value : Binary) : Option Int :=
  let (numerator, denominator) := value.quotient
  if numerator % denominator = 0 then
    let size := Int.ofNat (numerator / denominator)
    some (if value.negative then -size else size)
  else
    none

end Binary

end Fluxion.Decimal
