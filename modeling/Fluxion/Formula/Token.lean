/-!
# Tokens

The lexical units of formula text.  A lexeme is a token with the place where it starts, counted in
characters of the text it was read from.
-/

namespace Fluxion.Formula

/-- A lexical unit.  Both notations share the tokens; they differ in how powers and
names are written, so a token of one may be out of place in the other. -/
inductive Token where
  | number (text : String)
  | ident (name : String)
  | plus
  | minus
  | star
  | slash
  /-- a power in normal form, `**` -/
  | power
  /-- a power as users write it, `^` -/
  | caret
  | opening
  | closing
  deriving DecidableEq, Repr

/-- The written form of a token. -/
def Token.text : Token → String
  | .number text => text
  | .ident name => name
  | .plus => "+"
  | .minus => "-"
  | .star => "*"
  | .slash => "/"
  | .power => "**"
  | .caret => "^"
  | .opening => "("
  | .closing => ")"

/-- A token and the character where it starts.  Steps that add lexemes give
them the place of the one they stem from. -/
structure Lexeme where
  token : Token
  position : Nat
  deriving DecidableEq, Repr

/-- The tokens one after the other, with nothing between them.  Cutting the text into
lexemes again gives the same tokens only if no two of them run into one. -/
def render (lexemes : List Lexeme) : String :=
  String.join (lexemes.map fun lexeme => lexeme.token.text)

end Fluxion.Formula
