/-!
# Characters of numbers and names

Digits and letters of formulas are those of ASCII; other alphabets have no part in the notation.
-/

namespace Fluxion.Text

/-- Whether a character is a decimal digit. -/
def isDigit (c : Char) : Bool := decide ('0' ≤ c ∧ c ≤ '9')

/-- Whether a character is a letter without accents. -/
def isLetter (c : Char) : Bool := decide ('a' ≤ c ∧ c ≤ 'z' ∨ 'A' ≤ c ∧ c ≤ 'Z')

/-- The whole number that decimal digits denote, the most significant first. -/
def natOfDigits (digits : List Char) : Nat :=
  digits.foldl (fun value digit => 10 * value + (digit.toNat - '0'.toNat)) 0

/-- The whole number that decimal digits and nothing else denote. -/
def nat? (digits : List Char) : Option Nat :=
  if !digits.isEmpty && digits.all isDigit then some (natOfDigits digits) else none

/-- The value of a hexadecimal digit. -/
def hexValue? (c : Char) : Option Nat :=
  if '0' ≤ c ∧ c ≤ '9' then some (c.toNat - '0'.toNat)
  else if 'a' ≤ c ∧ c ≤ 'f' then some (c.toNat - 'a'.toNat + 10)
  else if 'A' ≤ c ∧ c ≤ 'F' then some (c.toNat - 'A'.toNat + 10)
  else none

/-- The whole number that hexadecimal digits and nothing else denote. -/
def hexNat? (digits : List Char) : Option Nat :=
  (digits.mapM hexValue?).map fun values => values.foldl (fun value digit => 16 * value + digit) 0

end Fluxion.Text
