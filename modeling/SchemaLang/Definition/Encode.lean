import SchemaLang.Definition.Basic
import SchemaLang.Json.Value

/-!
# Definitions as JSON values

The interchange form of definitions. A definition is an object with its type first; attributes that
are absent or false are left out, and a number that is not finite becomes null.
-/

namespace SchemaLang

/-- The JSON value of a literal. -/
def Literal.toJson : Literal → Json
  | bool value => .bool value
  | integer value => .integer value.toInt
  | float value => if value.isFinite then .float value else .null
  | text value => .string value

/-- The member for a flag, left out when the flag is not set. -/
def Json.flag? (key : String) (value : Bool) : List (String × Json) :=
  if value then [(key, .bool true)] else []

/-- The JSON value of a field. -/
def Field.toJson (field : Field) : Json :=
  .object <|
    [("name", .string field.name), ("type", .string field.type)] ++
      Json.flag? "optional" field.optional ++
      Json.flag? "isArray" field.isArray ++
      Json.member? "arraySize" (field.arraySize.map fun n => .integer n.toNat) ++
      Json.member? "defaultValue" (field.default.map Literal.toJson) ++
      Json.member? "min" (field.min.map Literal.toJson) ++
      Json.member? "max" (field.max.map Literal.toJson) ++
      Json.member? "encoding" (field.encoding.map Literal.toJson) ++
      Json.member? "length" (field.length.map Literal.toJson) ++
      Json.member? "fromEnd" (field.fromEnd.map Literal.toJson)

/-- The JSON value of a set of fields: one object, or an array of objects. -/
def FieldSet.toJson : FieldSet → Json
  | single field => field.toJson
  | many fields => .array (fields.map Field.toJson)

/-- The JSON value of a method. -/
def Method.toJson (method : Method) : Json :=
  .object <|
    [("name", .string method.name), ("fields", method.fields.toJson),
        ("returns", method.returns.toJson)] ++
      Json.member? "timeout" (method.timeout.map Literal.toJson)

/-- The JSON value of a definition. -/
def Definition.toJson : Definition → Json
  | schema s =>
    .object [("type", .string "schema"), ("name", .string s.name),
      ("fields", .array (s.fields.map Field.toJson))]
  | plugin p =>
    .object [("type", .string "plugin"), ("name", .string p.name), ("as", .string p.asName),
      ("methods", .array (p.methods.map Method.toJson))]

/-- The JSON value of a list of definitions. -/
def Definition.listToJson (definitions : List Definition) : Json :=
  .array (definitions.map Definition.toJson)

end SchemaLang
