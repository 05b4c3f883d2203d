import SchemaLang.Definition.Literal
import SchemaLang.Resolve.Error
import SchemaLang.Text.Quoted

/-!
# Errors of code generation

Code cannot be generated from definitions that do not resolve, and a default value has to suit the
field that it stands on.
-/

namespace SchemaLang

/-- Why no code can be generated. -/
inductive CodeError where
  | resolve (error : ResolveError)
  /-- An array with a default value. -/
  | arrayDefault (field : String)
  /-- A default value that the type of its field does not hold. -/
  | unfitDefault (value : Literal) (field type : String)
  deriving DecidableEq

namespace CodeError

/-- The words for an error. -/
def message : CodeError → String
  | resolve error => error.message
  | arrayDefault field =>
    "Backend error: The array field " ++ Text.quoted field ++ " cannot have a default value"
  | unfitDefault value field type =>
    "Backend error: The default value " ++ Text.quoted value.display ++
      " does not fit the field " ++ Text.quoted field ++ " of type " ++ Text.quoted type

/-- A resolution, with its error among the errors of code generation. -/
def ofResolve {α : Type} : Except ResolveError α → Except CodeError α
  | .ok value => .ok value
  | .error error => .error (resolve error)

end CodeError

end SchemaLang
