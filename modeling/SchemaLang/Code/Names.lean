import SchemaLang.Text.Words

/-!
# Names in generated code

Generated types are named in capitalized words, fields and methods in lower case words with
underscores. A name that would be a keyword of the generated code gets an underscore at its end.
-/

namespace SchemaLang.Code

/-- The keywords that no generated name may be. -/
def keywords : List String :=
  ["as", "async", "await", "break", "const", "continue", "crate", "dyn", "else", "enum", "extern",
    "false", "fn", "for", "if", "impl", "in", "let", "loop", "match", "mod", "move", "mut", "pub",
    "ref", "return", "self", "Self", "static", "struct", "super", "trait", "true", "type", "unsafe",
    "use", "where", "while"]

/-- A name, with an underscore at its end if it is a keyword. -/
def escapeKeyword (name : String) : String :=
  if keywords.contains name then name ++ "_" else name

/-- The name of the type generated for a schema or a plugin. -/
def typeName (name : String) : String := escapeKeyword (Text.upperCamel name)

/-- The name generated for a field, a parameter, a method or a module. -/
def memberName (name : String) : String := escapeKeyword (Text.snakeCase name)

end SchemaLang.Code
