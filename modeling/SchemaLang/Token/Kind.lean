/-!
# Kinds of tokens

The vocabulary of schema sources: names, string and number literals, five reserved words, ten
punctuation marks and the end of the input. Each kind has a description for messages.
-/

namespace SchemaLang

/-- What a token is. -/
inductive TokenKind where
  | identifier
  | stringLiteral
  | numberLiteral
  | schema
  | method
  | plugin
  | asWord
  | returns
  | equals
  | leftBrace
  | rightBrace
  | leftParen
  | rightParen
  | leftBracket
  | rightBracket
  | questionMark
  | comma
  | dot
  | endOfInput
  deriving DecidableEq, Repr, Inhabited

namespace TokenKind

/-- Every kind, in the order of declaration. -/
def all : List TokenKind :=
  [identifier, stringLiteral, numberLiteral, schema, method, plugin, asWord, returns, equals,
    leftBrace, rightBrace, leftParen, rightParen, leftBracket, rightBracket, questionMark, comma,
    dot, endOfInput]

theorem mem_all (kind : TokenKind) : kind ∈ all := by
  cases kind <;> decide

/-- Whether a kind is that of a reserved word. -/
def isReserved : TokenKind → Bool
  | schema | method | plugin | asWord | returns => true
  | _ => false

/-- The kind of a reserved word. -/
def ofWord? (word : String) : Option TokenKind :=
  if word = "schema" then some schema
  else if word = "method" then some method
  else if word = "plugin" then some plugin
  else if word = "as" then some asWord
  else if word = "returns" then some returns
  else none

/-- The kind of a punctuation mark. -/
def ofMark? : Char → Option TokenKind
  | '=' => some equals
  | '{' => some leftBrace
  | '}' => some rightBrace
  | '(' => some leftParen
  | ')' => some rightParen
  | '[' => some leftBracket
  | ']' => some rightBracket
  | '?' => some questionMark
  | ',' => some comma
  | '.' => some dot
  | _ => none

/-- The name of a kind in messages. -/
def describe : TokenKind → String
  | identifier => "identifier"
  | stringLiteral => "string literal"
  | numberLiteral => "number"
  | schema => "\"schema\""
  | method => "\"method\""
  | plugin => "\"plugin\""
  | asWord => "\"as\""
  | returns => "\"returns\""
  | equals => "\"=\""
  | leftBrace => "\"\x7b\""
  | rightBrace => "\"\x7d\""
  | leftParen => "\"(\""
  | rightParen => "\")\""
  | leftBracket => "\"[\""
  | rightBracket => "\"]\""
  | questionMark => "\"?\""
  | comma => "\",\""
  | dot => "\".\""
  | endOfInput => "end of input"

end TokenKind

end SchemaLang
