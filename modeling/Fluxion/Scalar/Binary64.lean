import Fluxion.Scalar
import Fluxion.Decimal.Binary

/-!
# Machine numbers as scalars

Double-precision numbers carry every scalar operation.  Undefined results are the number that is
not a number, overflow is infinite, and both fail the test for finiteness.
-/

namespace Fluxion

/-- The nearest machine number to the ratio of a circle's circumference
to its diameter. -/
def piBinary64 : Float := Float.ofBits 0x400921fb54442d18

/-- The nearest machine number to the base of the natural logarithm. -/
def eBinary64 : Float := Float.ofBits 0x4005bf0a8b145769

/-- The integer that a machine number is, if it is finite and whole.  Both
zeros are the integer zero. -/
def wholeBinary64? (value : Float) : Option Int :=
  match Decimal.Reading.ofFloat value with
  | .finite binary => binary.whole?
  | _ => none

/-- The elementary functions of machine numbers.  Arithmetic and the square
root are rounded correctly wherever they run; the last digits of these
functions are the platform's own, so nothing is assumed of them here. -/
class Platform where
  pow : Float → Float → Float
  exp : Float → Float
  log : Float → Float
  sin : Float → Float
  cos : Float → Float
  tan : Float → Float
  arcsin : Float → Float
  arccos : Float → Float
  arctan : Float → Float

/-- The functions of the machine at hand.  It is what runs; a theorem may put
any other platform in its place. -/
instance : Platform where
  pow := Float.pow
  exp := Float.exp
  log := Float.log
  sin := Float.sin
  cos := Float.cos
  tan := Float.tan
  arcsin := Float.asin
  arccos := Float.acos
  arctan := Float.atan

/-- Machine numbers as scalars, with the functions of whatever platform is at
hand.  Comparisons are those of machine numbers, so both zeros are equal and
what is no number equals nothing. -/
instance [Platform] : Scalar Float where
  ofInt n := Float.ofInt n
  pi := piBinary64
  e := eBinary64
  undefined := 0.0 / 0.0
  pow := Platform.pow
  abs := Float.abs
  exp := Platform.exp
  log := Platform.log
  sqrt := Float.sqrt
  sin := Platform.sin
  cos := Platform.cos
  tan := Platform.tan
  arcsin := Platform.arcsin
  arccos := Platform.arccos
  arctan := Platform.arctan
  less a b := decide (a < b)
  isFinite := Float.isFinite
  whole? := wholeBinary64?

end Fluxion
