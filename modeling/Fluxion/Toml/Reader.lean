import Fluxion.Toml.Quoted
import Fluxion.Toml.Scalar

/-!
# Reading settings documents

A document is a sequence of lines: entries `key = value`, headers `[key]` and repeated headers
`[[key]]`, with blank lines and comments between them.  A key is a name, bare or quoted, or
several with dots between them.  Lists and tables between braces may run over several lines and end
with a comma.  `parse?` reads a document, or fails where it is malformed or gives a name twice.

Readers take a text and give what they found with the text after it.  Those that repeat themselves
are given a number of repetitions that the length of the text bounds.
-/

namespace Fluxion.Toml

open Fluxion.Text (isDigit isLetter)

/-- Takes a value off the front of a text, and hands out what follows it. -/
abbrev Reader (α : Type) : Type := List Char → Option (α × List Char)

/-- How deep lists and tables between braces may nest.  What nests deeper is
refused, so reading always ends. -/
def nestingLimit : Nat := 80

/-! ### Gaps -/

/-- The text without blanks and tabulators at its beginning. -/
def skipBlanks (text : List Char) : List Char := text.dropWhile fun c => c = ' ' ∨ c = '\t'

/-- Skips blanks, line breaks and comments; `inComment` remembers a comment until its
line ends.  A control character in a comment makes the document malformed. -/
def skipGaps : Bool → List Char → Option (List Char)
  | _, [] => some []
  | _, '\n' :: rest => skipGaps false rest
  | _, '\r' :: '\n' :: rest => skipGaps false rest
  | true, c :: rest => if isControl c then none else skipGaps true rest
  | false, c :: rest =>
    if c = ' ' ∨ c = '\t' then skipGaps false rest
    else if c = '#' then skipGaps true rest
    else some (c :: rest)

/-- Whether the line has nothing more to say. -/
def isLineEnd : List Char → Bool
  | [] => true
  | '\n' :: _ => true
  | '\r' :: '\n' :: _ => true
  | '#' :: _ => true
  | _ => false

/-! ### Keys -/

/-- Whether a character may stand in a key without quotes. -/
def isBare (c : Char) : Bool := isDigit c || isLetter c || c == '_' || c == '-'

/-- Reads one name. -/
def readName : Reader String
  | '"' :: rest => readLine? ('"' :: rest)
  | '\x27' :: rest => readLine? ('\x27' :: rest)
  | text =>
    let name := text.takeWhile isBare
    if name.isEmpty then none else some (String.ofList name, text.dropWhile isBare)

/-- Reads the names of a key: the path, the last name, and the text after the
blanks behind it.  Blanks may stand around the points between names. -/
def readKey : Nat → List Char → Option (List String × String × List Char)
  | 0, _ => none
  | count + 1, text => do
    let (name, rest) ← readName (skipBlanks text)
    match skipBlanks rest with
    | '.' :: more =>
      let (path, last, after) ← readKey count more
      return (name :: path, last, after)
    | after => return ([], name, after)

/-! ### Values -/

/-- Reads the items of a list up to its closing bracket.  Line breaks and
comments may stand between them, and a comma behind the last one. -/
def readItems (readValue : Reader Value) : Nat → Reader (List Value)
  | 0, _ => none
  | count + 1, text => do
    match ← skipGaps false text with
    | ']' :: rest => return ([], rest)
    | start =>
      let (item, after) ← readValue start
      match ← skipGaps false after with
      | ',' :: more =>
        let (items, rest) ← readItems readValue count more
        return (item :: items, rest)
      | ']' :: rest => return ([item], rest)
      | _ => none

/-- Reads `key = value`.  The value begins on the line of the key. -/
def readEntry (readValue : Reader Value) (text : List Char) :
    Option ((List String × String × Value) × List Char) := do
  let (path, name, rest) ← readKey text.length text
  match rest with
  | '=' :: more =>
    let (value, after) ← readValue (skipBlanks more)
    return ((path, name, value), after)
  | _ => none

/-- Reads the entries of a table up to its closing brace.  Each is added as it
is read, so a name that is given twice is refused at once. -/
def readEntries (readValue : Reader Value) (table : Table) : Nat → Reader Table
  | 0, _ => none
  | count + 1, text => do
    match ← skipGaps false text with
    | '\x7d' :: after => return (table, after)
    | start =>
      let ((path, name, value), rest) ← readEntry readValue start
      let table ← table.insert? name value path
      match ← skipGaps false rest with
      | ',' :: more => readEntries readValue table count more
      | '\x7d' :: after => return (table, after)
      | _ => none

/-- Reads a value in which lists and tables nest no deeper than a limit.  What nests
deeper is taken for a word, and no word begins with a bracket or a brace. -/
def readValue : Nat → Reader Value
  | _, '"' :: rest => (readQuoted? ('"' :: rest)).map fun (text, after) => (.text text, after)
  | _, '\x27' :: rest =>
    (readQuoted? ('\x27' :: rest)).map fun (text, after) => (.text text, after)
  | depth + 1, '[' :: rest =>
    (readItems (readValue depth) (rest.length + 1) rest).map fun (items, after) =>
      (.list items, after)
  | depth + 1, '\x7b' :: rest =>
    (readEntries (readValue depth) [] (rest.length + 1) rest).map fun (table, after) =>
      (.table .braces table, after)
  | _, text => readWord text

/-! ### Documents -/

/-- Reads the statement at the front of a text: a header, a repeated header, or an
entry.  Two brackets begin a repeated header, so they are tried first. -/
def readStatement : Reader Statement
  | '[' :: '[' :: rest => do
    let (path, name, after) ← readKey rest.length rest
    match after with
    | ']' :: ']' :: after => return (.element path name, after)
    | _ => none
  | '[' :: rest => do
    let (path, name, after) ← readKey rest.length rest
    match after with
    | ']' :: after => return (.header path name, after)
    | _ => none
  | text => do
    let ((path, name, value), after) ← readEntry (readValue nestingLimit) text
    return (.entry path name value, after)

/-- Reads the lines of a text.  Behind its statement a line has nothing but a
comment, so no line has two statements. -/
def readStatements : Nat → List Char → Option (List Statement)
  | 0, _ => none
  | count + 1, text => do
    match ← skipGaps false text with
    | [] => return []
    | start =>
      let (statement, after) ← readStatement start
      let after := skipBlanks after
      guard (isLineEnd after)
      return statement :: (← readStatements count after)

/-- A text without the mark of its byte order. -/
def withoutMark : List Char → List Char
  | '\uFEFF' :: rest => rest
  | text => text

/-- Reads a document.  A mark of the byte order in front of it is skipped. -/
def parse? (text : String) : Option Table := do
  let text := withoutMark text.toList
  ofStatements? (← readStatements (text.length + 1) text)

end Fluxion.Toml
