import Fluxion.Decimal.Layout
import Fluxion.Scalar.Binary64
import Fluxion.Text.Ascii

/-!
# Numerals

The constants of a formula as text.  A formula writes a constant with the fewest digits that read
back to it, and reads digits with at most one point, rounded to the nearest number.
-/

namespace Fluxion

/-- A carrier whose numbers have written forms.  Formulas are printed and read
through this class only, so what is shown of them holds for every carrier of
which it is assumed. -/
class Numeral (K : Type) where
  /-- The text of a number in a formula or message. -/
  text : K → String
  /-- The number that unsigned digits with at most one point denote. -/
  ofDigits : List Char → K
  /-- Whether a number is infinite, and then whether it is negative. -/
  infinite? : K → Option Bool

namespace Decimal

/-- The machine number nearest to `digits · 10 ^ exponent`.  Exponents so far
from zero that the result is decided are cut off before any power is formed,
so the powers stay small. -/
def nearestFloat (digits : Nat) (exponent : Int) : Float :=
  if digits = 0 then 0.0
  else
    let leading := Int.ofNat (toString digits).length + exponent
    if 400 < leading then 1.0 / 0.0
    else if leading < -400 then 0.0
    else
      match exponent with
      | .ofNat k => Float.ofScientific digits false k
      | .negSucc k => Float.ofScientific digits true (k + 1)

/-- Reads digits with at most one point, as in `12`, `12.`, `12.5` and `.5`.
The digits without the point are scaled and rounded once, so the result is the
nearest number. -/
def floatOfDigits (text : List Char) : Float :=
  let whole := text.takeWhile (· ≠ '.')
  let fraction := (text.dropWhile (· ≠ '.')).drop 1
  nearestFloat (Text.natOfDigits (whole ++ fraction)) (-Int.ofNat fraction.length)

end Decimal

/-- Machine numbers are written with the fewest digits that read back, and read to the
nearest machine number.  What is not a number counts as neither infinity. -/
instance : Numeral Float where
  text := Decimal.Layout.plain.text
  ofDigits := Decimal.floatOfDigits
  infinite? value :=
    match Decimal.Reading.ofFloat value with
    | .infinite negative => some negative
    | _ => none

end Fluxion
