import SchemaLang.Definition.Basic

/-!
# Item serializers

The serializers that write the items of the arrays of schemas. A byte array is written in one piece
and a schema has a serializer of its own, so neither asks for an item serializer. Each is listed
once, where it is asked for first.
-/

namespace SchemaLang

/-- The item serializer that a field asks for. -/
def Field.itemSerializer? (field : Field) : Option String :=
  if field.isArray then
    (field.primitive?.filter (!·.isBytes)).map Primitive.itemSerializer
  else none

/-- The item serializers that schemas ask for, in order of first use. -/
def itemSerializers (schemas : List Schema) : List String :=
  (schemas.flatMap fun schema => schema.fields.filterMap Field.itemSerializer?).eraseDups

end SchemaLang
