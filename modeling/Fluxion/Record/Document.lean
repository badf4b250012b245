import Fluxion.Decimal.Reading

/-!
# Flat documents

Records are exchanged as JSON objects of named values, one to a line.  A number is written with the
fewest digits that read back; one that is not finite has no written form and becomes `null`.
-/

namespace Fluxion.Record

/-- A value of a flat document: nothing, a text, a number or a truth value. -/
inductive Value where
  | text (value : String)
  | number (value : Float)
  | flag (value : Bool)
  | null

/-- Named values in order. -/
abbrev Document : Type := List (String × Value)

/-! ### Writing -/

/-- The hexadecimal digit of a small number. -/
def hexDigit (n : Nat) : Char := Nat.digitChar n

/-- The escaped form of a character: quotes, backslashes and control
characters have one.  All others stand for themselves. -/
def escaped (c : Char) : List Char :=
  match c with
  | '"' => ['\\', '"']
  | '\\' => ['\\', '\\']
  | '\n' => ['\\', 'n']
  | '\t' => ['\\', 't']
  | '\r' => ['\\', 'r']
  | '\x08' => ['\\', 'b']
  | '\x0c' => ['\\', 'f']
  | c =>
    if c.toNat < 0x20 then
      ['\\', 'u', '0', '0', hexDigit (c.toNat / 16), hexDigit (c.toNat % 16)]
    else [c]

/-- A text between quotes, with an escaped form for what may not stand between
them as it is. -/
def quoteText (text : String) : String :=
  "\"" ++ String.ofList (text.toList.flatMap escaped) ++ "\""

/-- A value as it is written.  A number that is not finite is written as `null`. -/
def Value.render : Value → String
  | text value => quoteText value
  | number value =>
    match Decimal.Reading.ofFloat value with
    | .finite binary => Decimal.Layout.document.finiteText binary
    | _ => "null"
  | flag value => if value then "true" else "false"
  | null => "null"

/-- The document between braces, each value on a line of its own. -/
def render (document : Document) : String :=
  let line (entry : String × Value) : String := "  " ++ quoteText entry.1 ++ ": " ++ entry.2.render
  "\x7b\n" ++ ",\n".intercalate (document.map line) ++ "\n\x7d"

/-! ### Reading -/

/-- The text without blanks at its beginning. -/
def skipBlanks (text : List Char) : List Char :=
  text.dropWhile fun c => c = ' ' ∨ c = '\n' ∨ c = '\t' ∨ c = '\r'

/-- The character that an escape letter stands for.  A slash may be escaped,
though it never is when a document is written. -/
def unescaped? : Char → Option Char
  | '"' => some '"'
  | '\\' => some '\\'
  | '/' => some '/'
  | 'n' => some '\n'
  | 't' => some '\t'
  | 'r' => some '\r'
  | 'b' => some '\x08'
  | 'f' => some '\x0c'
  | _ => none

/-- The characters up to the closing quote, and what follows it.  Escapes are
replaced on the way. -/
def readQuoted : List Char → Option (List Char × List Char)
  | [] => none
  | '"' :: rest => some ([], rest)
  | '\\' :: 'u' :: a :: b :: c :: d :: rest => do
    let code ← Text.hexNat? [a, b, c, d]
    let (text, after) ← readQuoted rest
    return (Char.ofNat code :: text, after)
  | '\\' :: letter :: rest => do
    let c ← unescaped? letter
    let (text, after) ← readQuoted rest
    return (c :: text, after)
  | c :: rest => do
    let (text, after) ← readQuoted rest
    return (c :: text, after)

/-- Whether a character belongs to a number or a word. -/
def isPlain (c : Char) : Bool := c.isAlphanum || c == '-' || c == '+' || c == '.'

/-- A value at the front of a text, and what follows it.  What is neither
quoted nor one of three words has to be a number. -/
def readValue (text : List Char) : Option (Value × List Char) :=
  match text with
  | '"' :: rest => (readQuoted rest).map fun (value, after) => (.text (String.ofList value), after)
  | _ =>
    let word := text.takeWhile isPlain
    let after := text.dropWhile isPlain
    match String.ofList word with
    | "null" => some (.null, after)
    | "true" => some (.flag true, after)
    | "false" => some (.flag false, after)
    | _ => (Decimal.numeral? word).map fun value => (.number value, after)

/-- The named values up to the closing brace; `count` bounds how many there
are.  Between two of them stands a comma, and none behind the last.  Behind
the brace there is nothing but blanks. -/
def readFields : Nat → List Char → Option Document
  | 0, _ => none
  | count + 1, text =>
    match skipBlanks text with
    | '"' :: rest => do
      let (name, afterName) ← readQuoted rest
      match skipBlanks afterName with
      | ':' :: afterColon =>
        let (value, afterValue) ← readValue (skipBlanks afterColon)
        let field := (String.ofList name, value)
        match skipBlanks afterValue with
        | ',' :: more => return field :: (← readFields count more)
        | '\x7d' :: after => if (skipBlanks after).isEmpty then some [field] else none
        | _ => none
      | _ => none
    | _ => none

/-- Reads a document of at least one value.  Nothing but blanks may follow it. -/
def read? (text : String) : Option Document :=
  match skipBlanks text.toList with
  | '\x7b' :: rest => readFields rest.length rest
  | _ => none

end Fluxion.Record
