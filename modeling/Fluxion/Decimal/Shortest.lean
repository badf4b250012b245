import Fluxion.Decimal.Binary

/-!
# Shortest decimals

The decimal numbers that round to a given machine number form an interval around it: it reaches
halfway to either neighbour, and its ends belong to it exactly when the significand is even.
`Binary.shortest` picks from that interval a decimal with the fewest digits, and among those one
nearest to the number itself.  The search runs over grids of one digit, two digits and so on; on
each grid only the two neighbours of the number can be candidates.  All of it is exact arithmetic
on whole numbers.
-/

namespace Fluxion.Decimal

/-- The number `digits · 10 ^ exponent`.  The same number has many such forms,
of which `trimmed` is the shortest. -/
structure Digits where
  digits : Nat
  exponent : Int
  deriving DecidableEq, Repr

/-- Which of two equally near neighbours is taken.  It matters where a binary
number lies in the middle between two short decimals. -/
inductive Tie where
  | upward
  | toEven
  deriving DecidableEq, Repr

/-- The same number without zeros at its end. -/
def Digits.trimmed (number : Digits) : Digits :=
  if number.digits ≠ 0 ∧ number.digits % 10 = 0 then
    Digits.trimmed ⟨number.digits / 10, number.exponent + 1⟩
  else
    number
termination_by number.digits
decreasing_by show number.digits / 10 < number.digits; omega

namespace Binary

/-- The factors that bring `d · 10 ^ s` and `x · 2 ^ t` to a common unit: `d`
times the first compares with `x` times the second. -/
def commonUnit (s t : Int) : Nat × Nat :=
  (tenTo s.toNat * twoTo (-t).toNat, twoTo t.toNat * tenTo (-s).toNat)

/-- How many digits the whole part has: the least `k` with `value < 10 ^ k`.
It is not positive for small numbers.  The binary length gives an estimate
from below that is at most two short. -/
def decimalLength (value : Binary) : Int :=
  let binaryLength := Int.ofNat value.significand.log2 + value.exponent
  let estimate := Int.fdiv (binaryLength * 30103) 100000
  let below (k : Int) : Bool :=
    let (left, right) := commonUnit k value.exponent
    decide (value.significand * right < left)
  if below estimate then estimate
  else if below (estimate + 1) then estimate + 1
  else estimate + 2

/-- The interval of reals that round to the number, in units of `2 ^ (exponent - 2)`.
It reaches half a spacing to either side; below a power of two the spacing is half as
wide, unless the number has the least exponent. -/
def interval (value : Binary) : Nat × Nat :=
  let centre := 4 * value.significand
  let narrow := value.significand = twoTo 52 ∧ leastExponent < value.exponent
  (if narrow then centre - 1 else centre - 2, centre + 2)

/-- Of the neighbours of the number on the grid of multiples of `10 ^ s`, the nearest
one that rounds to the number.  The ends of the interval belong to it for even
significands only, and all comparisons are of whole numbers in a common unit. -/
def candidateOn (tie : Tie) (value : Binary) (s : Int) : Option Nat :=
  let (left, right) := commonUnit s (value.exponent - 2)
  let centre := 4 * value.significand * right
  let (low, high) := value.interval
  let closed := value.significand % 2 = 0
  let inside (d : Nat) : Bool :=
    if closed then decide (low * right ≤ d * left ∧ d * left ≤ high * right)
    else decide (low * right < d * left ∧ d * left < high * right)
  let lower := centre / left
  let upper := lower + 1
  match inside lower, inside upper with
  | false, false => none
  | true, false => some lower
  | false, true => some upper
  | true, true =>
    match compare (2 * centre) ((lower + upper) * left) with
    | .lt => some lower
    | .gt => some upper
    | .eq =>
      match tie with
      | .upward => some upper
      | .toEven => if lower % 2 = 0 then some lower else some upper

/-- The number itself, digit for digit.  Every binary fraction ends, so there is
always one, and the search for fewer digits has something to fall back on. -/
def exactDigits (value : Binary) : Digits :=
  match value.exponent with
  | .ofNat k => ⟨value.significand * twoTo k, 0⟩
  | .negSucc k => ⟨value.significand * Nat.pow 5 (k + 1), .negSucc k⟩

/-- The fewest digits that read back, nearest to the number.  Grids are tried
from one digit to seventeen, which always suffice, and the first with a
candidate decides. -/
def shortest (tie : Tie) (value : Binary) : Digits :=
  if value.significand = 0 then ⟨0, 0⟩
  else
    let length := value.decimalLength
    let found := (List.range 17).findSome? fun k =>
      let s := length - Int.ofNat (k + 1)
      (value.candidateOn tie s).map fun d => Digits.mk d s
    (found.getD value.exactDigits).trimmed

end Binary

end Fluxion.Decimal
