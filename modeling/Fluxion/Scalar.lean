/-!
# Scalars

The numbers that formulas compute with.  Everything symbolic in this library (trees, simplification,
differentiation, integration, the search for poles) uses only the operations collected here, so
the same definitions run on machine numbers and can be read over any other carrier.

Two of the operations are tests rather than arithmetic:

* `isFinite` separates numbers from the results of undefined or overflowing operations;
* `whole?` recognises whole numbers and hands them out as integers.

`==` is the carrier's own comparison of numbers.  It need not be reflexive (an undefined result
may differ from itself) and may identify distinct representations of zero.
-/

namespace Fluxion

/-- A carrier of numbers with the elementary functions.  It has no laws: what
a theorem needs of a carrier it states, and machine numbers satisfy few of
them.  All operations are total, and `isFinite` tells which results count. -/
class Scalar (K : Type) extends Add K, Sub K, Mul K, Div K, Neg K, BEq K where
  /-- The number a whole number denotes. -/
  ofInt : Int → K
  /-- The ratio of a circle's circumference to its diameter. -/
  pi : K
  /-- The base of the natural logarithm. -/
  e : K
  /-- The result of an operation that has none. -/
  undefined : K
  pow : K → K → K
  abs : K → K
  exp : K → K
  log : K → K
  sqrt : K → K
  sin : K → K
  cos : K → K
  tan : K → K
  arcsin : K → K
  arccos : K → K
  arctan : K → K
  /-- Strict order; `false` when an operand is undefined. -/
  less : K → K → Bool
  isFinite : K → Bool
  /-- The integer that a whole number is; `none` for fractions and for what is not finite. -/
  whole? : K → Option Int

namespace Scalar

variable {K : Type} [Scalar K]

/-- Whether a number compares equal to zero. -/
def isZero (a : K) : Bool := a == ofInt 0

/-- Whether a number compares equal to one. -/
def isOne (a : K) : Bool := a == ofInt 1

/-- Whether a number compares equal to minus one. -/
def isMinusOne (a : K) : Bool := a == ofInt (-1)

/-- Whether a number is below zero; a zero with a minus sign is not. -/
def isNegative (a : K) : Bool := less a (ofInt 0)

/-- Whether a number is above zero. -/
def isPositive (a : K) : Bool := less (ofInt 0) a

/-- Order with equality; `false` when an operand is undefined.  Both zeros are
at most each other. -/
def atMost (a b : K) : Bool := less a b || a == b

/-- Whether a number is whole. -/
def isWhole (a : K) : Bool := (whole? a).isSome

/-- The larger of two numbers, the first when neither is larger. -/
def larger (a b : K) : K := if less a b then b else a

/-- The smaller of two numbers, the first when neither is smaller. -/
def smaller (a b : K) : K := if less b a then b else a

/-- One half. -/
def half : K := ofInt 1 / ofInt 2

end Scalar

end Fluxion
