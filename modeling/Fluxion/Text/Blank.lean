/-!
# Blank characters

The characters with the White Space property: twenty-five of them, in ten ranges.  Formulas may
contain any of them between their lexemes, and texts are trimmed of them.
-/

namespace Fluxion.Text

/-- Code points of blank characters, as closed ranges in ascending order. -/
def blankRanges : List (Nat × Nat) :=
  [(0x0009, 0x000D), (0x0020, 0x0020), (0x0085, 0x0085), (0x00A0, 0x00A0), (0x1680, 0x1680),
   (0x2000, 0x200A), (0x2028, 0x2029), (0x202F, 0x202F), (0x205F, 0x205F), (0x3000, 0x3000)]

/-- Whether a character is blank, line breaks included. -/
def isBlank (c : Char) : Bool :=
  blankRanges.any fun (first, last) => decide (first ≤ c.toNat ∧ c.toNat ≤ last)

/-- The text without blanks at its beginning. -/
def trimStart (text : List Char) : List Char := text.dropWhile isBlank

/-- The text without blanks at either end. -/
def trim (text : List Char) : List Char := (trimStart (trimStart text).reverse).reverse

end Fluxion.Text
