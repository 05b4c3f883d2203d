import SchemaLang.Tree.Parser

/-!
# Phrases of the grammar

The grammar of schema sources, with a type for each of its rules:

    unit         := (schema | plugin)*
    schema       := 'schema' IDENT '{' field* '}'
    plugin       := 'plugin' IDENT ('.' IDENT)* ('as' IDENT)? '{' method* '}'
    method       := 'method' IDENT typeOptions? (params returns | returns params)
    params       := '{' field* '}' | IDENT
    returns      := 'returns' params
    field        := IDENT '?'? IDENT typeOptions? array? defaultValue?
    typeOptions  := '(' (option (',' option)*)? ')'
    option       := IDENT '=' (IDENT | NUMBER | STRING)
    array        := '[' NUMBER? ']'
    defaultValue := '=' (IDENT | NUMBER | STRING)

where the number of an array is a positive one of 64 bits. A value of such a type is a phrase: a
derivation of its rule, with every token in its place, those that a syntax tree leaves out included.
`tokens` is what a phrase is written with, and `node` is the syntax tree that it describes.
-/

namespace SchemaLang

/-- A token at another place. -/
def Token.moved (move : Text.Position → Text.Position) (token : Token) : Token :=
  { token with position := move token.position }

/-- A phrase is written with tokens, and stays a phrase when they stand at other places. -/
class Phrase (δ : Type) where
  tokens : δ → List Token
  moved : (Text.Position → Text.Position) → δ → δ
  tokens_moved : ∀ move phrase, tokens (moved move phrase) = (tokens phrase).map (·.moved move)

namespace Phrase

/-- A token of a kind. -/
abbrev Terminal (kind : TokenKind) := { token : Token // token.kind = kind }

/-- A token that can be a value: a name, a number or a string. -/
abbrev LiteralTerminal :=
  { token : Token //
    token.kind = .identifier ∨ token.kind = .numberLiteral ∨ token.kind = .stringLiteral }

/-- A number that can be an array size. -/
abbrev SizeTerminal :=
  { token : Token //
    token.kind = .numberLiteral ∧ ∃ size, readUnsigned64? token.text = some size ∧ 0 < size }

instance {kind : TokenKind} : Phrase (Terminal kind) where
  tokens terminal := [terminal.1]
  moved move terminal := ⟨terminal.1.moved move, terminal.2⟩
  tokens_moved _ _ := rfl

instance : Phrase LiteralTerminal where
  tokens terminal := [terminal.1]
  moved move terminal := ⟨terminal.1.moved move, terminal.2⟩
  tokens_moved _ _ := rfl

instance : Phrase SizeTerminal where
  tokens terminal := [terminal.1]
  moved move terminal := ⟨terminal.1.moved move, terminal.2⟩
  tokens_moved _ _ := rfl

section Combined

variable {δ ε : Type} [Phrase δ] [Phrase ε]

instance : Phrase (δ × ε) where
  tokens pair := tokens pair.1 ++ tokens pair.2
  moved move pair := (moved move pair.1, moved move pair.2)
  tokens_moved move pair := by
    simp only [tokens_moved, List.map_append]

instance : Phrase (Option δ) where
  tokens phrase := (phrase.map tokens).getD []
  moved move phrase := phrase.map (moved move)
  tokens_moved move phrase := by
    cases phrase <;> simp [tokens_moved]

instance : Phrase (List δ) where
  tokens phrases := phrases.flatMap tokens
  moved move phrases := phrases.map (moved move)
  tokens_moved move phrases := by
    simp only [List.flatMap_map, List.map_flatMap, tokens_moved]

@[simp] theorem tokens_pair (left : δ) (right : ε) :
    tokens (left, right) = tokens left ++ tokens right := rfl

@[simp] theorem tokens_none : tokens (none : Option δ) = [] := rfl

@[simp] theorem tokens_some (phrase : δ) : tokens (some phrase) = tokens phrase := rfl

@[simp] theorem tokens_nil : tokens ([] : List δ) = [] := rfl

@[simp] theorem tokens_cons (phrase : δ) (phrases : List δ) :
    tokens (phrase :: phrases) = tokens phrase ++ tokens phrases := rfl

@[simp] theorem tokens_append (phrases others : List δ) :
    tokens (phrases ++ others) = tokens phrases ++ tokens others := by
  induction phrases with
  | nil => rfl
  | cons phrase phrases ih =>
    rw [List.cons_append, tokens_cons, tokens_cons, ih, List.append_assoc]

end Combined

@[simp] theorem tokens_terminal {kind : TokenKind} (terminal : Terminal kind) :
    tokens terminal = [terminal.1] := rfl

@[simp] theorem tokens_literal (terminal : LiteralTerminal) : tokens terminal = [terminal.1] := rfl

@[simp] theorem tokens_size (terminal : SizeTerminal) : tokens terminal = [terminal.1] := rfl

end Phrase

open Phrase

/-! ## The rules inside a field -/

/-- `IDENT '=' (IDENT | NUMBER | STRING)` -/
structure OptionPhrase where
  key : Terminal .identifier
  equals : Terminal .equals
  value : LiteralTerminal

/-- `'(' (option (',' option)*)? ')'` -/
structure OptionsPhrase where
  opening : Terminal .leftParen
  entries : Option (OptionPhrase × List (Terminal .comma × OptionPhrase))
  closing : Terminal .rightParen

/-- `'[' NUMBER? ']'` -/
structure ArrayPhrase where
  opening : Terminal .leftBracket
  size : Option SizeTerminal
  closing : Terminal .rightBracket

/-- `'=' (IDENT | NUMBER | STRING)` -/
structure DefaultPhrase where
  equals : Terminal .equals
  value : LiteralTerminal

/-- `IDENT '?'? IDENT typeOptions? array? defaultValue?` -/
structure FieldPhrase where
  name : Terminal .identifier
  optional : Option (Terminal .questionMark)
  type : Terminal .identifier
  options : Option OptionsPhrase
  array : Option ArrayPhrase
  default : Option DefaultPhrase

/-- `'{' field* '}'` -/
structure BlockPhrase where
  opening : Terminal .leftBrace
  fields : List FieldPhrase
  closing : Terminal .rightBrace

instance : Phrase OptionPhrase where
  tokens p := tokens p.key ++ tokens p.equals ++ tokens p.value
  moved move p := ⟨moved move p.key, moved move p.equals, moved move p.value⟩
  tokens_moved move p := by simp only [tokens_moved, List.map_append]

instance : Phrase OptionsPhrase where
  tokens p := tokens p.opening ++ tokens p.entries ++ tokens p.closing
  moved move p := ⟨moved move p.opening, moved move p.entries, moved move p.closing⟩
  tokens_moved move p := by simp only [tokens_moved, List.map_append]

instance : Phrase ArrayPhrase where
  tokens p := tokens p.opening ++ tokens p.size ++ tokens p.closing
  moved move p := ⟨moved move p.opening, moved move p.size, moved move p.closing⟩
  tokens_moved move p := by simp only [tokens_moved, List.map_append]

instance : Phrase DefaultPhrase where
  tokens p := tokens p.equals ++ tokens p.value
  moved move p := ⟨moved move p.equals, moved move p.value⟩
  tokens_moved move p := by simp only [tokens_moved, List.map_append]

instance : Phrase FieldPhrase where
  tokens p := tokens p.name ++ tokens p.optional ++ tokens p.type ++ tokens p.options ++
    tokens p.array ++ tokens p.default
  moved move p := ⟨moved move p.name, moved move p.optional, moved move p.type,
    moved move p.options, moved move p.array, moved move p.default⟩
  tokens_moved move p := by simp only [tokens_moved, List.map_append]

instance : Phrase BlockPhrase where
  tokens p := tokens p.opening ++ tokens p.fields ++ tokens p.closing
  moved move p := ⟨moved move p.opening, moved move p.fields, moved move p.closing⟩
  tokens_moved move p := by simp only [tokens_moved, List.map_append]

/-- The syntax tree of an option. -/
def OptionPhrase.node (p : OptionPhrase) : OptionNode := ⟨p.key.1, p.value.1⟩

/-- The syntax trees of the options between parentheses. -/
def OptionsPhrase.nodes (p : OptionsPhrase) : List OptionNode :=
  match p.entries with
  | none => []
  | some (first, more) => first.node :: more.map (·.2.node)

/-- The syntax tree of brackets. -/
def ArrayPhrase.node (p : ArrayPhrase) : ArrayNode := ⟨p.size.map (·.1)⟩

/-- The syntax tree of a field. -/
def FieldPhrase.node (p : FieldPhrase) : FieldNode where
  name := p.name.1
  optional := p.optional.map (·.1)
  type := p.type.1
  options := p.options.map OptionsPhrase.nodes
  array := p.array.map ArrayPhrase.node
  default := p.default.map (·.value.1)

/-- The syntax trees of the fields between braces. -/
def BlockPhrase.nodes (p : BlockPhrase) : List FieldNode := p.fields.map FieldPhrase.node

/-! ## The rules around fields -/

/-- `'{' field* '}' | IDENT` -/
inductive ParamsPhrase where
  | block (phrase : BlockPhrase)
  | named (type : Terminal .identifier)

/-- `'returns' params` -/
structure ReturnsPhrase where
  word : Terminal .returns
  results : ParamsPhrase

/-- `params returns | returns params` -/
inductive SignaturePhrase where
  | paramsFirst (parameters : ParamsPhrase) (returns : ReturnsPhrase)
  | returnsFirst (returns : ReturnsPhrase) (parameters : ParamsPhrase)

/-- `'method' IDENT typeOptions? (params returns | returns params)` -/
structure MethodPhrase where
  word : Terminal .method
  name : Terminal .identifier
  options : Option OptionsPhrase
  signature : SignaturePhrase

/-- `'schema' IDENT '{' field* '}'` -/
structure SchemaPhrase where
  word : Terminal .schema
  name : Terminal .identifier
  block : BlockPhrase

/-- `'plugin' IDENT ('.' IDENT)* ('as' IDENT)? '{' method* '}'` -/
structure PluginPhrase where
  word : Terminal .plugin
  first : Terminal .identifier
  more : List (Terminal .dot × Terminal .identifier)
  asName : Option (Terminal .asWord × Terminal .identifier)
  opening : Terminal .leftBrace
  methods : List MethodPhrase
  closing : Terminal .rightBrace

/-- `schema | plugin` -/
inductive ItemPhrase where
  | schema (phrase : SchemaPhrase)
  | plugin (phrase : PluginPhrase)

instance : Phrase ParamsPhrase where
  tokens
    | .block phrase => tokens phrase
    | .named type => tokens type
  moved move
    | .block phrase => .block (moved move phrase)
    | .named type => .named (moved move type)
  tokens_moved move p := by cases p <;> exact tokens_moved move _

instance : Phrase ReturnsPhrase where
  tokens p := tokens p.word ++ tokens p.results
  moved move p := ⟨moved move p.word, moved move p.results⟩
  tokens_moved move p := by simp only [tokens_moved, List.map_append]

instance : Phrase SignaturePhrase where
  tokens
    | .paramsFirst parameters returns => tokens parameters ++ tokens returns
    | .returnsFirst returns parameters => tokens returns ++ tokens parameters
  moved move
    | .paramsFirst parameters returns => .paramsFirst (moved move parameters) (moved move returns)
    | .returnsFirst returns parameters => .returnsFirst (moved move returns) (moved move parameters)
  tokens_moved move p := by cases p <;> simp only [tokens_moved, List.map_append]

instance : Phrase MethodPhrase where
  tokens p := tokens p.word ++ tokens p.name ++ tokens p.options ++ tokens p.signature
  moved move p :=
    ⟨moved move p.word, moved move p.name, moved move p.options, moved move p.signature⟩
  tokens_moved move p := by simp only [tokens_moved, List.map_append]

instance : Phrase SchemaPhrase where
  tokens p := tokens p.word ++ tokens p.name ++ tokens p.block
  moved move p := ⟨moved move p.word, moved move p.name, moved move p.block⟩
  tokens_moved move p := by simp only [tokens_moved, List.map_append]

instance : Phrase PluginPhrase where
  tokens p := tokens p.word ++ tokens p.first ++ tokens p.more ++ tokens p.asName ++
    tokens p.opening ++ tokens p.methods ++ tokens p.closing
  moved move p := ⟨moved move p.word, moved move p.first, moved move p.more, moved move p.asName,
    moved move p.opening, moved move p.methods, moved move p.closing⟩
  tokens_moved move p := by simp only [tokens_moved, List.map_append]

instance : Phrase ItemPhrase where
  tokens
    | .schema phrase => tokens phrase
    | .plugin phrase => tokens phrase
  moved move
    | .schema phrase => .schema (moved move phrase)
    | .plugin phrase => .plugin (moved move phrase)
  tokens_moved move p := by cases p <;> exact tokens_moved move _

/-- The syntax tree of parameters or results. -/
def ParamsPhrase.node : ParamsPhrase → ParamsNode
  | block phrase => .block phrase.nodes
  | named type => .named type.1

namespace SignaturePhrase

/-- The parameters. -/
def parameters : SignaturePhrase → ParamsPhrase
  | paramsFirst parameters _ => parameters
  | returnsFirst _ parameters => parameters

/-- The word `returns` and the results. -/
def returns : SignaturePhrase → ReturnsPhrase
  | paramsFirst _ returns => returns
  | returnsFirst returns _ => returns

end SignaturePhrase

/-- The syntax tree of a method. -/
def MethodPhrase.node (p : MethodPhrase) : MethodNode where
  name := p.name.1
  options := p.options.map OptionsPhrase.nodes
  params := p.signature.parameters.node
  returns := p.signature.returns.results.node

/-- The syntax tree of a schema. -/
def SchemaPhrase.node (p : SchemaPhrase) : SchemaNode := ⟨p.name.1, p.block.nodes⟩

/-- The syntax tree of a plugin. -/
def PluginPhrase.node (p : PluginPhrase) : PluginNode where
  first := p.first.1
  more := p.more.map (·.2.1)
  asName := p.asName.map (·.2.1)
  methods := p.methods.map MethodPhrase.node

/-- The syntax tree of an item. -/
def ItemPhrase.node : ItemPhrase → ItemNode
  | schema phrase => .schema phrase.node
  | plugin phrase => .plugin phrase.node

/-- `(schema | plugin)*` -/
abbrev UnitPhrase := List ItemPhrase

/-- The syntax trees of the items of a unit. -/
def UnitPhrase.nodes (unit : UnitPhrase) : List ItemNode := unit.map ItemPhrase.node

end SchemaLang
