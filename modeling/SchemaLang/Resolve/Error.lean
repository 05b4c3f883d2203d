import SchemaLang.Text.Literal

/-!
# Errors of resolution

What can be wrong with definitions that are well formed one by one: a type that nothing defines,
a byte array without a length, a schema nested in itself.
-/

namespace SchemaLang

/-- Why definitions cannot be resolved. -/
inductive ResolveError where
  /-- A field whose type is neither primitive nor a schema. -/
  | unresolvedType (type field : String)
  /-- A byte array whose length nothing gives. -/
  | missingFixedLength (field : String)
  /-- Schemas each nested in the one before; the last is the first again. -/
  | cyclicReference (path : List String)
  deriving DecidableEq, Repr

/-- The words for an error. -/
def ResolveError.message : ResolveError → String
  | unresolvedType type field =>
    "The type " ++ Text.literal type ++ " of field " ++ Text.literal field ++
      " is neither a primitive nor a declared schema"
  | missingFixedLength field =>
    "Field " ++ Text.literal field ++
      " is of fixed length but has neither a \"length\" nor a \"fromEnd\" option"
  | cyclicReference path =>
    "Recursive nesting of " ++ " -> ".intercalate path ++ " is not allowed"

/-- The error of a schema met again below itself: the walk from there on, and back to it. -/
def ResolveError.cycle (walk : List String) (name : String) : ResolveError :=
  .cyclicReference (walk.dropWhile (· ≠ name) ++ [name])

end SchemaLang
