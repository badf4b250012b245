import Fluxion.Decimal.Rounded

/-!
# Decimal text

How chosen digits are laid out.  A `Layout` holds the decisions a text format makes: where
positional notation ends, what follows a whole number, how an exponent is marked.  The layouts of
this library:

* `Layout.plain`, for formulas and messages: always positional, whole numbers without a point;
* `Layout.pointed`, for limits of an integral: whole numbers keep `.0`, and very large or small
  numbers take an exponent;
* `Layout.document`, for documents that are read back: like `pointed` with a wider positional
  range and a signed exponent.
-/

namespace Fluxion.Decimal

/-- Decisions of a number format.  The digits are the same in every format;
the formats differ in where the point stands, in when an exponent is written,
and in how a tie between two shortest decimals is broken. -/
structure Layout where
  /-- which of two equally near shortest decimals is written -/
  tie : Tie
  /-- the range of the leading digit's exponent that is written positionally; `none` is all -/
  positional : Option (Int × Int)
  /-- what follows a whole number in positional notation -/
  wholeTail : String
  /-- what precedes the digits of a positive exponent -/
  raisedMark : String
  /-- what precedes the digits of a negative exponent -/
  loweredMark : String

namespace Layout

/-- Fewest digits, no exponent, no trailing point.  This is how formulas and
messages write numbers. -/
def plain : Layout := ⟨.upward, none, "", "", ""⟩

/-- Positional from `0.0001` up to, but not including, `10 ^ 16`, with a point
always.  This is how limits are shown beside an integral. -/
def pointed : Layout := ⟨.upward, some (-4, 15), ".0", "e", "e-"⟩

/-- Positional from `0.00001` up to, but not including, `10 ^ 16`.  This is
how documents write numbers. -/
def document : Layout := ⟨.toEven, some (-5, 15), ".0", "e+", "e-"⟩

/-- Digits with the point where the exponent puts it.  Zeros fill the places
between the digits and the point, on whichever side it lies, and a fraction
has a zero before its point. -/
def positionalText (layout : Layout) (number : Digits) : String :=
  let text := toString number.digits
  match number.exponent with
  | .ofNat k => text ++ "".pushn '0' k ++ layout.wholeTail
  | .negSucc k =>
    let places := k + 1
    if places < text.length then
      let whole := text.length - places
      (text.take whole).toString ++ "." ++ (text.drop whole).toString
    else
      "0." ++ "".pushn '0' (places - text.length) ++ text

/-- One digit before the point, and an exponent.  With a single digit there is
no point, and the sign of the exponent is part of its mark. -/
def exponentText (layout : Layout) (number : Digits) (leading : Int) : String :=
  let text := toString number.digits
  let mantissa :=
    if text.length ≤ 1 then text else (text.take 1).toString ++ "." ++ (text.drop 1).toString
  match leading with
  | .ofNat k => mantissa ++ layout.raisedMark ++ toString k
  | .negSucc k => mantissa ++ layout.loweredMark ++ toString (k + 1)

/-- Unsigned text of a decimal whose last digit is not zero.  Whether an
exponent is written depends on the place of the first digit only, and zero is
always positional. -/
def digitsText (layout : Layout) (number : Digits) : String :=
  let leading := Int.ofNat (toString number.digits).length + number.exponent - 1
  match layout.positional with
  | none => layout.positionalText number
  | some (least, greatest) =>
    if number.digits = 0 ∨ least ≤ leading ∧ leading ≤ greatest then
      layout.positionalText number
    else
      layout.exponentText number leading

/-- The sign in front of digits; a positive number has none. -/
def signText (negative : Bool) : String := if negative then "-" else ""

/-- Text of a finite number; zero keeps its sign, so that reading it back
gives the same zero. -/
def finiteText (layout : Layout) (value : Binary) : String :=
  signText value.negative ++ layout.digitsText (value.shortest layout.tie)

/-- Text of any machine number.  Infinities have a sign, and what is not a
number has none. -/
def text (layout : Layout) (value : Float) : String :=
  match Reading.ofFloat value with
  | .finite binary => layout.finiteText binary
  | .infinite negative => signText negative ++ "inf"
  | .notANumber => "NaN"

end Layout

/-- Text with exactly `places` digits after the point.  The number is rounded once,
from its exact value, and a number that is rounded to zero keeps its sign. -/
def fixedText (places : Nat) (value : Float) : String :=
  match Reading.ofFloat value with
  | .finite binary =>
    let digits := toString (binary.roundedTo (-Int.ofNat places))
    let padded := "".pushn '0' (places + 1 - digits.length) ++ digits
    let whole := padded.length - places
    let point := if places = 0 then "" else "."
    Layout.signText binary.negative ++ (padded.take whole).toString ++ point
      ++ (padded.drop whole).toString
  | .infinite negative => Layout.signText negative ++ "inf"
  | .notANumber => "NaN"

end Fluxion.Decimal
