import SchemaLang.Number.Decimal
import SchemaLang.Source.Error
import SchemaLang.Tree.Basic

/-!
# Syntax trees from tokens

A reader of tokens takes tokens from the front of a list and hands on the rest, or refuses the list
at the first token that cannot continue what was read. Where something repeats, the next token
alone decides whether another one follows.
-/

namespace SchemaLang

/-- Why a list of tokens is refused. -/
inductive Refusal where
  /-- The first of the remaining tokens is not what is expected. -/
  | unexpected (expected : Expectation) (remaining : List Token)
  /-- A number between brackets is no array size. -/
  | arraySize (number : Token)
  deriving DecidableEq, Repr

/-- The error of a refusal; `stop` is the place of the end of the input. -/
def Refusal.toError (stop : Text.Position) : Refusal → SourceError
  | unexpected expected [] => ⟨.unexpected expected none, stop⟩
  | unexpected expected (token :: _) => ⟨.unexpected expected (some token.text), token.position⟩
  | arraySize number => ⟨.arraySize number.text, number.position⟩

/-- A reader of tokens. -/
abbrev TokenReader (α : Type) := List Token → Except Refusal (α × List Token)

namespace TokenReader

/-- Whether the next token is of a kind. -/
def startsWith (kind : TokenKind) (tokens : List Token) : Bool :=
  tokens.head?.any (·.kind = kind)

/-- A token of a kind. -/
def take (kind : TokenKind) (expected : Expectation) : TokenReader Token
  | [] => .error (.unexpected expected [])
  | token :: rest =>
    if token.kind = kind then .ok (token, rest)
    else .error (.unexpected expected (token :: rest))

/-- A token of a kind if there is one. -/
def takeIf (kind : TokenKind) : List Token → Option Token × List Token
  | [] => (none, [])
  | token :: rest => if token.kind = kind then (some token, rest) else (none, token :: rest)

/-- What stands behind a token of a kind. -/
def behind {α : Type} (kind : TokenKind) (expected : Expectation) (reader : TokenReader α) :
    TokenReader α := fun tokens => do
  let (_, tokens) ← take kind expected tokens
  reader tokens

/-- What a token of a kind begins, if there is one. -/
def optional {α : Type} (kind : TokenKind) (reader : TokenReader α) : TokenReader (Option α) :=
  fun tokens =>
    if startsWith kind tokens then
      (reader tokens).map fun (value, rest) => (some value, rest)
    else .ok (none, tokens)

/-- As many as there are of what a token of a kind begins. -/
def many {α : Type} (kind : TokenKind) (reader : TokenReader α) (tokens : List Token) :
    Except Refusal (List α × List Token) :=
  if startsWith kind tokens then
    match reader tokens with
    | .error refusal => .error refusal
    | .ok (value, rest) =>
      if rest.length < tokens.length then
        (many kind reader rest).map fun (values, rest) => (value :: values, rest)
      else .ok ([value], rest)
  else .ok ([], tokens)
termination_by tokens.length

/-- A name, a number or a string. -/
def literal (expected : Expectation) : TokenReader Token
  | [] => .error (.unexpected expected [])
  | token :: rest =>
    match token.kind with
    | .identifier | .numberLiteral | .stringLiteral => .ok (token, rest)
    | _ => .error (.unexpected expected (token :: rest))

/-- A key, an equals sign and a value. -/
def optionEntry : TokenReader OptionNode := fun tokens => do
  let (key, tokens) ← take .identifier .optionName tokens
  let (_, tokens) ← take .equals .equals tokens
  let (value, tokens) ← literal .optionValue tokens
  return (⟨key, value⟩, tokens)

/-- A comma and an option behind it. -/
def furtherOption : TokenReader OptionNode := behind .comma .commaOrClosingParen optionEntry

/-- Options between parentheses, with commas between them. -/
def options : TokenReader (List OptionNode) := fun tokens => do
  let (_, tokens) ← take .leftParen .openingParen tokens
  if startsWith .rightParen tokens then
    let (_, tokens) ← take .rightParen .commaOrClosingParen tokens
    return ([], tokens)
  else
    let (first, tokens) ← optionEntry tokens
    let (more, tokens) ← many .comma furtherOption tokens
    let (_, tokens) ← take .rightParen .commaOrClosingParen tokens
    return (first :: more, tokens)

/-- Whether a text is an array size: a positive number of 64 bits. -/
def isArraySize (text : String) : Bool := (readUnsigned64? text).any (0 < ·)

/-- The brackets of an array. -/
def array : TokenReader ArrayNode := fun tokens => do
  let (_, tokens) ← take .leftBracket .openingBracket tokens
  match takeIf .numberLiteral tokens with
  | (none, tokens) =>
    let (_, tokens) ← take .rightBracket .closingBracket tokens
    return (⟨none⟩, tokens)
  | (some number, tokens) =>
    if isArraySize number.text then
      let (_, tokens) ← take .rightBracket .closingBracket tokens
      return (⟨some number⟩, tokens)
    else .error (.arraySize number)

/-- An equals sign and the default value behind it. -/
def defaultValue : TokenReader Token := behind .equals .equals (literal .defaultValue)

/-- A field: a name, perhaps a question mark, a type, options, brackets and a default value. -/
def field : TokenReader FieldNode := fun tokens => do
  let (name, tokens) ← take .identifier .fieldName tokens
  let (mark, tokens) := takeIf .questionMark tokens
  let (type, tokens) ← take .identifier .fieldType tokens
  let (options, tokens) ← optional .leftParen options tokens
  let (array, tokens) ← optional .leftBracket array tokens
  let (default, tokens) ← optional .equals defaultValue tokens
  return (⟨name, mark, type, options, array, default⟩, tokens)

/-- Fields between braces. -/
def fieldBlock : TokenReader (List FieldNode) := fun tokens => do
  let (_, tokens) ← take .leftBrace .openingBrace tokens
  let (fields, tokens) ← many .identifier field tokens
  let (_, tokens) ← take .rightBrace .fieldOrClosingBrace tokens
  return (fields, tokens)

/-- The parameters or the results of a method. -/
def params (expected : Expectation) : TokenReader ParamsNode := fun tokens =>
  if startsWith .leftBrace tokens then
    (fieldBlock tokens).map fun (fields, rest) => (.block fields, rest)
  else (take .identifier expected tokens).map fun (type, rest) => (.named type, rest)

/-- The word `returns` and the results behind it. -/
def returns : TokenReader ParamsNode := behind .returns .returnsWord (params .results)

/-- A method: a name, options, and its parameters and its results in either order. -/
def method : TokenReader MethodNode := fun tokens => do
  let (_, tokens) ← take .method .methodOrClosingBrace tokens
  let (name, tokens) ← take .identifier .methodName tokens
  let (options, tokens) ← optional .leftParen options tokens
  if startsWith .returns tokens then
    let (results, tokens) ← returns tokens
    let (parameters, tokens) ← params .parameters tokens
    return (⟨name, options, parameters, results⟩, tokens)
  else
    let (parameters, tokens) ← params .parametersOrReturns tokens
    let (results, tokens) ← returns tokens
    return (⟨name, options, parameters, results⟩, tokens)

/-- A dot and the segment of a dotted name behind it. -/
def furtherSegment : TokenReader Token :=
  behind .dot .pathSegment (take .identifier .pathSegment)

/-- The word `as` and the name behind it. -/
def asName : TokenReader Token := behind .asWord .asName (take .identifier .asName)

/-- A schema: the word for it, a name and fields. -/
def schema : TokenReader SchemaNode := fun tokens => do
  let (_, tokens) ← take .schema .definition tokens
  let (name, tokens) ← take .identifier .schemaName tokens
  let (fields, tokens) ← fieldBlock tokens
  return (⟨name, fields⟩, tokens)

/-- A plugin: the word for it, a dotted name, perhaps another name, and methods between braces. -/
def plugin : TokenReader PluginNode := fun tokens => do
  let (_, tokens) ← take .plugin .definition tokens
  let (first, tokens) ← take .identifier .pluginName tokens
  let (more, tokens) ← many .dot furtherSegment tokens
  let (asName, tokens) ← optional .asWord asName tokens
  let (_, tokens) ← take .leftBrace .openingBrace tokens
  let (methods, tokens) ← many .method method tokens
  let (_, tokens) ← take .rightBrace .methodOrClosingBrace tokens
  return (⟨first, more, asName, methods⟩, tokens)

/-- A schema or a plugin. -/
def item : TokenReader ItemNode := fun tokens =>
  if startsWith .schema tokens then
    (schema tokens).map fun (node, rest) => (.schema node, rest)
  else if startsWith .plugin tokens then
    (plugin tokens).map fun (node, rest) => (.plugin node, rest)
  else .error (.unexpected .definition tokens)

/-- All items up to the last token. -/
def items (tokens : List Token) : Except Refusal (List ItemNode) :=
  if tokens = [] then .ok []
  else
    match item tokens with
    | .error refusal => .error refusal
    | .ok (node, rest) =>
      if rest.length < tokens.length then (items rest).map (node :: ·) else .ok [node]
termination_by tokens.length

end TokenReader

/--
The items of a list of tokens that ends with the end of the input. Tokens behind the first end of
the input are not looked at.
-/
def parseItems (tokens : List Token) : Except SourceError (List ItemNode) :=
  if TokenReader.startsWith .endOfInput tokens.reverse then
    let (body, rest) := tokens.span (·.kind ≠ .endOfInput)
    let stop := (rest.head?.map (·.position)).getD .start
    match TokenReader.items body with
    | .ok nodes => .ok nodes
    | .error refusal => .error (refusal.toError stop)
  else .error ⟨.unterminated, ⟨0, 0⟩⟩

end SchemaLang
