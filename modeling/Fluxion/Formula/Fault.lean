import Fluxion.Formula.Token

/-!
# Faults of formula text

Two readers can refuse a text.  The grammar of normal form reports a `GrammarFault`; the reader of
user notation reports a `ParseFault`, which points into the text the user wrote.  Each cause is a
constructor, and each reader has one function that words its causes.
-/

namespace Fluxion.Formula

/-- How deep groups, calls and signs may nest in normal form.  Reading such a formula
recurses no deeper than this, so a long text cannot exhaust the stack. -/
def nestingLimit : Nat := 200

/-- How many parentheses may be open at once in user notation.  It is counted
in the text as it was entered. -/
def openLimit : Nat := 64

/-- Why a text is not a formula in normal form.  Positions count the
characters of that text; the end of it has no position. -/
inductive GrammarFault where
  | unexpectedCharacter (character : Char) (position : Nat)
  | unknownName (name : String) (position : Nat)
  | missingCall (name : String) (position : Nat)
  | unexpectedToken (token : Token) (position : Nat)
  | tooDeep (position : Nat)
  | unexpectedEnd
  deriving DecidableEq, Repr

/-- Why a text is not a formula in user notation.  Positions count the
characters of the text that was entered, whatever the steps have made of it.
What no cause of its own explains is left to the grammar. -/
inductive ParseFault where
  /-- nothing but blanks, or the text of the empty input field -/
  | empty
  | unexpectedCharacter (character : Char) (position : Nat)
  | unbalanced (position : Nat)
  /-- a function name that no parenthesis follows -/
  | missingCall (name : String) (position : Nat)
  | unknownName (name : String) (position : Nat)
  | tooManyOpen (position : Nat)
  /-- a power of `e` at the end of the text -/
  | missingExponent
  /-- a power of `e` whose exponent starts with an operator or a closing parenthesis -/
  | badExponent (token : Token) (position : Nat)
  /-- the normal form is no formula -/
  | malformed (fault : GrammarFault)
  deriving DecidableEq, Repr

/-- A text about a place in a formula. -/
def located (text : String) (position : Nat) : String :=
  text ++ " at position " ++ toString position

/-- A text between quotes. -/
def quoted (text : String) : String := "'" ++ text ++ "'"

/-- The text about a character that no formula contains, which both
notations share. -/
def unexpectedCharacterMessage (character : Char) (position : Nat) : String :=
  located ("unexpected character " ++ quoted (String.singleton character)) position

/-- The text of a fault of a formula in normal form.  It quotes what was met
and says where, if there is a place. -/
def GrammarFault.message : GrammarFault → String
  | unexpectedCharacter character position => unexpectedCharacterMessage character position
  | unknownName name position => located ("name " ++ quoted name) position ++ " is not defined"
  | missingCall name position =>
    located ("function " ++ quoted name) position ++ " must be called with parentheses"
  | unexpectedToken token position => located ("unexpected " ++ quoted token.text) position
  | tooDeep position =>
    located ("expression nested deeper than " ++ toString nestingLimit ++ " levels") position
  | unexpectedEnd => "unexpected end of expression"

/-- The text of a fault of a formula in user notation.  Faults that concern
the form as a whole begin alike, so that they can be told from those of a
single name or character. -/
def ParseFault.message : ParseFault → String
  | empty => "no function was entered"
  | unexpectedCharacter character position => unexpectedCharacterMessage character position
  | unbalanced position => located "unbalanced parenthesis" position
  | missingCall name position =>
    located ("function " ++ quoted name) position ++ " needs parentheses, e.g. " ++ name ++ "(x)"
  | unknownName name position => located ("unknown name " ++ quoted name) position
  | tooManyOpen position =>
    "invalid syntax: "
      ++ located ("parentheses nested deeper than " ++ toString openLimit ++ " levels") position
  | missingExponent => "invalid syntax: missing exponent after 'e'"
  | badExponent token position =>
    "invalid syntax: " ++ located ("unexpected " ++ quoted token.text) position
      ++ " in exponent of 'e'"
  | malformed fault => "invalid syntax: " ++ fault.message

/-- What a fault of the grammar means for user notation: a fault that a single
place in the user's own text explains is reported as such, any other makes the
formula malformed. -/
def ParseFault.ofGrammar : GrammarFault → ParseFault
  | .unexpectedCharacter character position => .unexpectedCharacter character position
  | .unknownName name position => .unknownName name position
  | .missingCall name position => .missingCall name position
  | fault => .malformed fault

end Fluxion.Formula
