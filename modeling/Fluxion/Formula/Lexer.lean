import Fluxion.Formula.Fault
import Fluxion.Text.Ascii
import Fluxion.Text.Blank

/-!
# Reading lexemes

A text is cut into lexemes from left to right; blanks separate lexemes and belong to none.  At each
place the longest token of its class is taken:

* a number is `12`, `12.`, `12.5` or `.5`, with no exponent;
* a name is a run of letters, with at most one point that letters follow, as in `math.sin`;
* `**` is one operator.
-/

namespace Fluxion.Formula

open Fluxion.Text (isBlank isDigit isLetter)

/-- The lengths of a number's whole part and of its fraction with the point;
both are zero when no number starts the text.  A point belongs to the number
even if no digit follows it, but not if no digit stands on either side. -/
def numberWidth (text : List Char) : Nat :=
  let whole := text.takeWhile isDigit
  let fraction :=
    match text.dropWhile isDigit with
    | '.' :: after => some (after.takeWhile isDigit)
    | _ => none
  match whole.length, fraction with
  | 0, none => 0
  | 0, some digits => if digits.isEmpty then 0 else digits.length + 1
  | n + 1, none => n + 1
  | n + 1, some digits => n + 1 + (digits.length + 1)

/-- The length of a name; zero when no name starts the text.  A point belongs
to the name only if a letter follows it, and only one point does. -/
def identWidth (text : List Char) : Nat :=
  let first := (text.takeWhile isLetter).length
  if first = 0 then 0
  else
    match text.dropWhile isLetter with
    | '.' :: after =>
      let second := (after.takeWhile isLetter).length
      if second = 0 then first else first + 1 + second
    | _ => first

/-- The operator or parenthesis that starts a text, with its length.  Two
stars are one operator, so they are tried before one. -/
def symbol? : List Char → Option (Token × Nat)
  | '*' :: '*' :: _ => some (.power, 2)
  | '^' :: _ => some (.caret, 1)
  | '+' :: _ => some (.plus, 1)
  | '-' :: _ => some (.minus, 1)
  | '*' :: _ => some (.star, 1)
  | '/' :: _ => some (.slash, 1)
  | '(' :: _ => some (.opening, 1)
  | ')' :: _ => some (.closing, 1)
  | _ => none

/-- The token that starts a text, with its length.  Numbers are tried first,
then names, then symbols. -/
def token? (text : List Char) : Option (Token × Nat) :=
  match numberWidth text with
  | n + 1 => some (.number (String.ofList (text.take (n + 1))), n + 1)
  | 0 =>
    match identWidth text with
    | n + 1 => some (.ident (String.ofList (text.take (n + 1))), n + 1)
    | 0 => symbol? text

/-- Lexemes of a text whose first character has the given position.  The first
character that starts no lexeme is reported with its place.  Every lexeme is
as long as it can be, so the recursion goes on behind it. -/
def lexemesFrom (position : Nat) (text : List Char) : Except GrammarFault (List Lexeme) :=
  match text with
  | [] => .ok []
  | c :: rest =>
    if isBlank c then lexemesFrom (position + 1) rest
    else
      match token? (c :: rest) with
      | some (token, width + 1) => do
        let lexemes ← lexemesFrom (position + (width + 1)) (rest.drop width)
        return ⟨token, position⟩ :: lexemes
      | _ => .error (.unexpectedCharacter c position)
termination_by text.length
decreasing_by
  · simp only [List.length_cons]; omega
  · simp only [List.length_drop, List.length_cons]; omega

/-- Cuts a text into lexemes. -/
def lexemes (text : String) : Except GrammarFault (List Lexeme) := lexemesFrom 0 text.toList

end Fluxion.Formula
