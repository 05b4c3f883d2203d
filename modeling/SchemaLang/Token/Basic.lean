import SchemaLang.Text.Position
import SchemaLang.Token.Kind

/-!
# Tokens

A token is a kind, the text it was read from, and the place where that text starts. A run of
characters that starts no token is reported with its place.
-/

namespace SchemaLang

/-- A token of a schema source. -/
structure Token where
  kind : TokenKind
  text : String
  position : Text.Position
  deriving DecidableEq, Repr, Inhabited

/-- The number of characters of a token. -/
def Token.length (token : Token) : Nat := token.text.length

/-- A run of characters in which no token starts. -/
structure StrayRun where
  text : String
  position : Text.Position
  deriving DecidableEq, Repr

end SchemaLang
