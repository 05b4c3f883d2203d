import SchemaLang.Token.Lexeme
import SchemaLang.Token.Scope

/-!
# The tokens of a source

A source is cut into segments. White space and comments give no token, and neither does a number
whose first digit is outside the Latin script; every other lexeme gives one, and every run between
lexemes is reported. The tokens end with the end of the input.
-/

namespace SchemaLang

/-- The kind of token that a lexeme gives. -/
def LexemeForm.tokenKind? : LexemeForm → List Char → Option TokenKind
  | .blank, _ => none
  | .comment, _ => none
  | .string, _ => some .stringLiteral
  | .word, text => some ((TokenKind.ofWord? (String.ofList text)).getD .identifier)
  | .mark, c :: _ => TokenKind.ofMark? c
  | .mark, [] => none
  | .number, c :: _ => if c = '-' || c.isDigit then some .numberLiteral else none
  | .number, [] => none

/-- What a source consists of. -/
structure TokenStream where
  tokens : List Token
  strays : List StrayRun
  deriving DecidableEq, Repr

namespace TokenStream

/-- The stream of the segments that start at a place. -/
def ofSegments (p : Text.Position) : List Segment → TokenStream
  | [] => ⟨[⟨.endOfInput, "", p⟩], []⟩
  | .lexeme form text :: rest =>
    let after := ofSegments (p.after text) rest
    match form.tokenKind? text with
    | some kind => { after with tokens := ⟨kind, String.ofList text, p⟩ :: after.tokens }
    | none => after
  | .stray text :: rest =>
    let after := ofSegments (p.after text) rest
    { after with strays := ⟨String.ofList text, p⟩ :: after.strays }

/-- The stream of a source, with every token given the kind that it has in its scope. -/
def ofSource (source : String) : TokenStream :=
  let stream := ofSegments .start (Segment.ofText source.toList)
  { stream with tokens := relabel stream.tokens }

end TokenStream

end SchemaLang
