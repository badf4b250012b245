import Fluxion.Decimal.Numeral

/-!
# Reading numerals

A numeral is an optional sign, digits with at most one point and at least one digit, and an
optional exponent.  It denotes the machine number nearest to it, which is infinite when it is too
large.  A number can also be written as a word: `inf`, `infinity` or `nan`, in any case and with an
optional sign.
-/

namespace Fluxion.Decimal

open Fluxion.Text (isDigit nat? natOfDigits)

/-- A sign at the front of a text and what follows it. -/
def cutSign : List Char → Bool × List Char
  | '-' :: rest => (true, rest)
  | '+' :: rest => (false, rest)
  | text => (false, text)

/-- An exponent, or nothing at all, which counts as zero.  The mark of an
exponent without digits behind it makes the text no number. -/
def exponent? : List Char → Option Int
  | [] => some 0
  | mark :: rest =>
    if mark = 'e' ∨ mark = 'E' then
      let (negative, digits) := cutSign rest
      (nat? digits).map fun size => if negative then -Int.ofNat size else Int.ofNat size
    else none

/-- The fraction digits that follow a point, and the rest; without a point
there are none. -/
def cutFraction : List Char → List Char × List Char
  | '.' :: rest => (rest.takeWhile isDigit, rest.dropWhile isDigit)
  | text => ([], text)

/-- The number that an unsigned numeral denotes. -/
def unsigned? (text : List Char) : Option Float :=
  let whole := text.takeWhile isDigit
  let (fraction, rest) := cutFraction (text.dropWhile isDigit)
  if whole.isEmpty && fraction.isEmpty then none
  else
    (exponent? rest).map fun exponent =>
      nearestFloat (natOfDigits (whole ++ fraction)) (exponent - Int.ofNat fraction.length)

/-- The number that a word denotes.  There are words for infinities and for
what is not a number, in any case. -/
def word? (text : List Char) : Option Float :=
  let word := String.ofList (text.map Char.toLower)
  if word = "inf" ∨ word = "infinity" then some (1.0 / 0.0)
  else if word = "nan" then some (0.0 / 0.0)
  else none

/-- A number with its sign. -/
def withSign (negative : Bool) (size : Float) : Float := if negative then -size else size

/-- The number that a numeral denotes. -/
def numeral? (text : List Char) : Option Float :=
  let (negative, rest) := cutSign text
  (unsigned? rest).map (withSign negative)

/-- The number that a text is, as a numeral or as a word.  Nothing may be left
over, and blanks are not skipped. -/
def number? (text : List Char) : Option Float :=
  let (negative, rest) := cutSign text
  ((unsigned? rest).orElse fun _ => word? rest).map (withSign negative)

end Fluxion.Decimal
