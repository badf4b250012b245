import Fluxion.Text.Ascii

/-!
# Quoted texts of settings documents

Four forms: between double quotes with escapes, between single quotes without, and both again with
tripled quotes over several lines.  Control characters other than the tab must be escaped.
-/

namespace Fluxion.Toml

open Fluxion.Text (hexNat?)

/-- Whether a character may not stand for itself. -/
def isControl (c : Char) : Bool :=
  decide (c.toNat < 0x20 ∧ c ≠ '\t' ∨ c.toNat = 0x7F)

/-- The character that an escape letter stands for.  Escapes with digits
behind them are read elsewhere, and no other letter may be escaped. -/
def unescaped? : Char → Option Char
  | '"' => some '"'
  | '\\' => some '\\'
  | 'b' => some '\x08'
  | 't' => some '\t'
  | 'n' => some '\n'
  | 'f' => some '\x0c'
  | 'r' => some '\r'
  | 'e' => some '\x1b'
  | _ => none

/-- The character whose code point hexadecimal digits denote.  Not every
number is the code point of a character. -/
def scalar? (digits : List Char) : Option Char := do
  let code ← hexNat? digits
  guard (decide code.isValidChar)
  return Char.ofNat code

/-- A text of which the first character is known. -/
def follow (c : Char) (rest : Option (List Char × List Char)) : Option (List Char × List Char) :=
  rest.map fun (text, after) => (c :: text, after)

/-- The text up to a closing double quote, and what follows the quote.
Escapes are replaced on the way, and a control character that is not escaped
makes the text malformed. -/
def readEscaped : List Char → Option (List Char × List Char)
  | [] => none
  | '"' :: rest => some ([], rest)
  | '\\' :: 'x' :: a :: b :: rest => do
    follow (← scalar? [a, b]) (readEscaped rest)
  | '\\' :: 'u' :: a :: b :: c :: d :: rest => do
    follow (← scalar? [a, b, c, d]) (readEscaped rest)
  | '\\' :: 'U' :: a :: b :: c :: d :: e :: f :: g :: h :: rest => do
    follow (← scalar? [a, b, c, d, e, f, g, h]) (readEscaped rest)
  | '\\' :: letter :: rest => do follow (← unescaped? letter) (readEscaped rest)
  | c :: rest => if isControl c then none else follow c (readEscaped rest)

/-- The text up to a closing single quote, and what follows the quote.  There
are no escapes, so a backslash stands for itself. -/
def readLiteral : List Char → Option (List Char × List Char)
  | [] => none
  | '\x27' :: rest => some ([], rest)
  | c :: rest => if isControl c then none else follow c (readLiteral rest)

/-- A text without a line break at its beginning. -/
def skipBreak : List Char → List Char
  | '\n' :: rest => rest
  | '\r' :: '\n' :: rest => rest
  | text => text

/-- Whether nothing but blanks is left of the line. -/
def endsLine (text : List Char) : Bool :=
  match text.dropWhile fun c => c = ' ' ∨ c = '\t' with
  | '\n' :: _ => true
  | '\r' :: '\n' :: _ => true
  | _ => false

/-- The text up to three closing double quotes, and what follows them.  Up to two more
quotes before them belong to the text.  A backslash at the end of a line takes the
line break and the blanks after it away, which `skipping` remembers. -/
def readEscapedBlock : Bool → List Char → Option (List Char × List Char)
  | _, [] => none
  | _, '"' :: '"' :: '"' :: '"' :: '"' :: rest => some (['"', '"'], rest)
  | _, '"' :: '"' :: '"' :: '"' :: rest => some (['"'], rest)
  | _, '"' :: '"' :: '"' :: rest => some ([], rest)
  | _, '\\' :: 'x' :: a :: b :: rest => do
    follow (← scalar? [a, b]) (readEscapedBlock false rest)
  | _, '\\' :: 'u' :: a :: b :: c :: d :: rest => do
    follow (← scalar? [a, b, c, d]) (readEscapedBlock false rest)
  | _, '\\' :: 'U' :: a :: b :: c :: d :: e :: f :: g :: h :: rest => do
    follow (← scalar? [a, b, c, d, e, f, g, h]) (readEscapedBlock false rest)
  | _, '\\' :: letter :: rest =>
    if endsLine (letter :: rest) then readEscapedBlock true rest
    else do follow (← unescaped? letter) (readEscapedBlock false rest)
  | skipping, '\r' :: '\n' :: rest =>
    if skipping then readEscapedBlock true rest
    else follow '\r' (follow '\n' (readEscapedBlock false rest))
  | skipping, c :: rest =>
    if skipping && (c == ' ' || c == '\t' || c == '\n') then readEscapedBlock true rest
    else if c ≠ '\n' ∧ isControl c then none
    else follow c (readEscapedBlock false rest)

/-- The text up to three closing single quotes, and what follows them.  Up to
two more quotes before them belong to the text, as for double quotes. -/
def readLiteralBlock : List Char → Option (List Char × List Char)
  | [] => none
  | '\x27' :: '\x27' :: '\x27' :: '\x27' :: '\x27' :: rest => some (['\x27', '\x27'], rest)
  | '\x27' :: '\x27' :: '\x27' :: '\x27' :: rest => some (['\x27'], rest)
  | '\x27' :: '\x27' :: '\x27' :: rest => some ([], rest)
  | '\r' :: '\n' :: rest => follow '\r' (follow '\n' (readLiteralBlock rest))
  | c :: rest => if c ≠ '\n' ∧ isControl c then none else follow c (readLiteralBlock rest)

/-- Reads a quoted text on one line. -/
def readLine? : List Char → Option (String × List Char)
  | '"' :: rest => (readEscaped rest).map fun (text, after) => (String.ofList text, after)
  | '\x27' :: rest => (readLiteral rest).map fun (text, after) => (String.ofList text, after)
  | _ => none

/-- Reads a quoted text of any form: with single or double quotes, on one line or on
several.  A line break right behind three opening quotes is no part of the text. -/
def readQuoted? : List Char → Option (String × List Char)
  | '"' :: '"' :: '"' :: rest =>
    (readEscapedBlock false (skipBreak rest)).map fun (text, after) => (String.ofList text, after)
  | '\x27' :: '\x27' :: '\x27' :: rest =>
    (readLiteralBlock (skipBreak rest)).map fun (text, after) => (String.ofList text, after)
  | text => readLine? text

end Fluxion.Toml
