import Fluxion.Decimal.Reading
import Fluxion.Toml.Basic

/-!
# Words of settings documents

Values that are written as one word: truth values, integers, numbers, and dates and times.  Digits
may be grouped with single underscores.  Integers have at most 128 bits, numbers must not be too
large for a machine number, and dates and times must exist, but nothing here needs to know which
ones they are.
-/

namespace Fluxion.Toml

open Fluxion.Text (isDigit isLetter nat? natOfDigits hexNat? hexValue?)

/-- The digits of a text in which single underscores stand between digits
only.  The underscores mean nothing. -/
def ungrouped? (isDigit : Char → Bool) : List Char → Option (List Char)
  | [] => none
  | [digit] => if isDigit digit then some [digit] else none
  | digit :: '_' :: rest =>
    if isDigit digit then (ungrouped? isDigit rest).map (digit :: ·) else none
  | digit :: rest =>
    if isDigit digit then (ungrouped? isDigit rest).map (digit :: ·) else none

/-- Decimal digits without a needless leading zero. -/
def decimalDigits? (text : List Char) : Option (List Char) := do
  let digits ← ungrouped? isDigit text
  guard (digits.length ≤ 1 || digits.head? ≠ some '0')
  return digits

/-- The whole number that digits to a base denote.  There is none if a digit
does not belong to the base. -/
def natOfBase? (base : Nat) (text : List Char) : Option Nat := do
  let isDigit (c : Char) : Bool := (hexValue? c).any (· < base)
  let digits ← ungrouped? isDigit text
  let values ← digits.mapM hexValue?
  return values.foldl (fun value digit => base * value + digit) 0

/-- Whether an integer has at most 128 bits. -/
def isStorable (n : Int) : Bool :=
  decide (-Int.ofNat (Decimal.twoTo 127) ≤ n ∧ n < Int.ofNat (Decimal.twoTo 128))

/-- The integer that a word is, decimal or after the mark of another base.
Only decimal integers have a sign, and one with more than 128 bits is none. -/
def integer? (word : List Char) : Option Int := do
  let n : Int ←
    match word with
    | '0' :: 'x' :: digits => (natOfBase? 16 digits).map Int.ofNat
    | '0' :: 'o' :: digits => (natOfBase? 8 digits).map Int.ofNat
    | '0' :: 'b' :: digits => (natOfBase? 2 digits).map Int.ofNat
    | word =>
      let (negative, rest) := Decimal.cutSign word
      (decimalDigits? rest).map fun digits =>
        if negative then -Int.ofNat (natOfDigits digits) else Int.ofNat (natOfDigits digits)
  guard (isStorable n)
  return n

/-- Whether a character may stand among the digits of a number. -/
def isGrouped (c : Char) : Bool := isDigit c || c == '_'

/-- The digits after a point, none where there is no point, and what follows them. -/
def fraction? : List Char → Option (List Char × List Char)
  | '.' :: rest => do
    let digits ← ungrouped? isDigit (rest.takeWhile isGrouped)
    return (digits, rest.dropWhile isGrouped)
  | text => some ([], text)

/-- The exponent at the end of a number. -/
def exponent? : List Char → Option Int
  | [] => some 0
  | mark :: rest => do
    guard (mark = 'e' ∨ mark = 'E')
    let (negative, rest) := Decimal.cutSign rest
    let size := Int.ofNat (natOfDigits (← ungrouped? isDigit rest))
    return if negative then -size else size

/-- The number that an unsigned word is.  Whole numbers without an exponent
are no numbers, and neither is one that is too large for a machine number.
Infinity and what is no number are written as words. -/
def magnitude? (word : List Char) : Option Float :=
  match word with
  | ['i', 'n', 'f'] => some (1.0 / 0.0)
  | ['n', 'a', 'n'] => some (0.0 / 0.0)
  | _ => do
    let whole ← decimalDigits? (word.takeWhile isGrouped)
    let after := word.dropWhile isGrouped
    guard (!after.isEmpty)
    let (fraction, rest) ← fraction? after
    let exponent ← exponent? rest
    let value := Decimal.nearestFloat (natOfDigits (whole ++ fraction))
      (exponent - Int.ofNat fraction.length)
    guard value.isFinite
    return value

/-- The number that a word is. -/
def number? (word : List Char) : Option Float :=
  let (negative, rest) := Decimal.cutSign word
  (magnitude? rest).map (Decimal.withSign negative)

/-! ### Dates and times -/

/-- How many days a month has. -/
def daysIn (year month : Nat) : Nat :=
  if month = 2 then
    if year % 4 = 0 ∧ (year % 100 ≠ 0 ∨ year % 400 = 0) then 29 else 28
  else if month = 4 ∨ month = 6 ∨ month = 9 ∨ month = 11 then 30
  else 31

/-- Whether two digits denote a number of a range. -/
def isTwoDigits (least greatest : Nat) (tens ones : Char) : Bool :=
  (nat? [tens, ones]).any fun n => decide (least ≤ n ∧ n ≤ greatest)

/-- Skips a date.  It must exist, so leap years count. -/
def skipDate? : List Char → Option (List Char)
  | a :: b :: c :: d :: '-' :: m :: n :: '-' :: p :: q :: rest => do
    let year ← nat? [a, b, c, d]
    let month ← nat? [m, n]
    guard (isTwoDigits 1 12 m n && isTwoDigits 1 (daysIn year month) p q)
    return rest
  | _ => none

/-- Skips a time of day, which may leave the seconds out.  A minute may have a
second more, and a fraction of a second has at least one digit. -/
def skipTime? : List Char → Option (List Char)
  | h :: i :: ':' :: m :: n :: rest => do
    guard (isTwoDigits 0 23 h i && isTwoDigits 0 59 m n)
    match rest with
    | ':' :: s :: t :: rest =>
      guard (isTwoDigits 0 60 s t)
      match rest with
      | '.' :: more =>
        guard (!(more.takeWhile isDigit).isEmpty)
        return more.dropWhile isDigit
      | rest => return rest
    | rest => return rest
  | _ => none

/-- Whether a text is nothing, or a distance from world time. -/
def isOffset : List Char → Bool
  | [] => true
  | ['Z'] | ['z'] => true
  | [sign, h, i, ':', m, n] =>
    (sign == '+' || sign == '-') && isTwoDigits 0 23 h i && isTwoDigits 0 59 m n
  | _ => false

/-- Whether a word is a date, a time or both.  Which one it is does not matter
here, as no setting is a date. -/
def isMoment (word : List Char) : Bool :=
  match skipDate? word with
  | none => skipTime? word == some []
  | some [] => true
  | some (mark :: time) =>
    (mark == 'T' || mark == 't' || mark == ' ') && (skipTime? time).any isOffset

/-! ### Words -/

/-- Whether a character belongs to a word. -/
def isWordCharacter (c : Char) : Bool :=
  isDigit c || isLetter c || c == '_' || c == '+' || c == '-' || c == '.' || c == ':'

/-- The value that a word is: a truth value, an integer, a number, or a date
or time.  An integer is never taken for a number, whatever its size. -/
def ofWord? (word : List Char) : Option Value :=
  match String.ofList word with
  | "true" => some (.flag true)
  | "false" => some (.flag false)
  | _ =>
    match integer? word, number? word with
    | some n, _ => some (.integer n)
    | none, some x => some (.number x)
    | none, none => if isMoment word then some .moment else none

/-- Where the value at the front of a text ends that is written as one word.  A date
may be followed by a blank and a time, which then belong to the word. -/
def cutWord (text : List Char) : List Char × List Char :=
  let word := text.takeWhile isWordCharacter
  let rest := text.dropWhile isWordCharacter
  match skipDate? word, rest with
  | some [], ' ' :: more =>
    if more.head?.any isDigit then
      (word ++ ' ' :: more.takeWhile isWordCharacter, more.dropWhile isWordCharacter)
    else (word, rest)
  | _, _ => (word, rest)

/-- Reads a value that is written as one word. -/
def readWord (text : List Char) : Option (Value × List Char) :=
  let (word, rest) := cutWord text
  (ofWord? word).map (·, rest)

end Fluxion.Toml
