import SchemaLang.Token.Basic

/-!
# Where reserved words are reserved

Inside the braces that hold field definitions a reserved word is an ordinary name. The words
`schema`, `method` and `returns` announce such braces, and the next opening brace opens them; the
next closing brace leaves them. A plugin's own braces are never announced.
-/

namespace SchemaLang

/-- Where a token stands in relation to field definitions. -/
inductive Scope where
  | outside
  | announced
  | fields
  deriving DecidableEq, Repr, Inhabited

/-- The scope after a token of some kind, and the kind that the token has there. -/
def Scope.advance : Scope → TokenKind → Scope × TokenKind
  | .fields, kind =>
    if kind = .rightBrace then (.outside, kind)
    else if kind.isReserved then (.fields, .identifier)
    else (.fields, kind)
  | scope, kind =>
    match kind with
    | .schema | .method | .returns => (.announced, kind)
    | .plugin | .rightBrace => (.outside, kind)
    | .leftBrace => (if scope = .announced then .fields else scope, kind)
    | _ => (scope, kind)

/-- Tokens with the kinds that they have when the first of them stands in a scope. -/
def relabelFrom (scope : Scope) : List Token → List Token
  | [] => []
  | token :: rest =>
    { token with kind := (scope.advance token.kind).2 } ::
      relabelFrom (scope.advance token.kind).1 rest

/-- Tokens with reserved words among field definitions made names. -/
def relabel (tokens : List Token) : List Token := relabelFrom .outside tokens

end SchemaLang
