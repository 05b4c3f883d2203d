import SchemaLang.Resolve.Index

/-!
# Default values

The value that a field has when the encoded data gives none. A default written in the source goes
first, an array is empty, a primitive type has a value of its own, and a schema has the defaults of
all of its fields. A schema that is met again below itself has no default.
-/

namespace SchemaLang

/-- A default value. -/
inductive DefaultValue where
  | explicit (value : Literal)
  | emptyString
  | zero
  | false
  | emptyBytes
  | emptyArray
  | schema (name : String) (fields : List (String × DefaultValue))

/-- The default value of a primitive type. -/
def Primitive.defaultValue (type : Primitive) : DefaultValue :=
  if type.isString then .emptyString
  else if type.isBytes then .emptyBytes
  else if type.isBool then .false
  else .zero

/-- The default value of a field that does not depend on a schema. -/
def Field.ownDefault? (field : Field) : Option DefaultValue :=
  match field.default with
  | some value => some (.explicit value)
  | none =>
    if field.isArray then some .emptyArray else field.primitive?.map Primitive.defaultValue

namespace SchemaIndex

mutual

/-- The default value of a field met on a walk. -/
def defaultOn (index : SchemaIndex) (walk : List String) (field : Field) :
    Except ResolveError DefaultValue :=
  match field.ownDefault? with
  | some value => .ok value
  | none =>
    match h : index.get? field.type with
    | none => .error (.unresolvedType field.type field.name)
    | some schema =>
      if hmem : schema.name ∈ walk then .error (.cycle walk schema.name)
      else
        have := unvisited_lt (mem_of_get? h) hmem
        (defaultsOn index (walk ++ [schema.name]) schema.fields).map (.schema schema.name)
termination_by (index.unvisited walk, 0)

/-- The default values of fields met on a walk. -/
def defaultsOn (index : SchemaIndex) (walk : List String) :
    List Field → Except ResolveError (List (String × DefaultValue))
  | [] => .ok []
  | field :: rest => do
    let value ← defaultOn index walk field
    let values ← defaultsOn index walk rest
    return (field.name, value) :: values
termination_by fields => (index.unvisited walk, fields.length + 1)

end

/-- The default value of a field. -/
def defaultOf (index : SchemaIndex) (field : Field) : Except ResolveError DefaultValue :=
  index.defaultOn [] field

/-- The value of a schema with all of its fields at their defaults. -/
def schemaDefault (index : SchemaIndex) (schema : Schema) : Except ResolveError DefaultValue :=
  (index.defaultsOn [schema.name] schema.fields).map (.schema schema.name)

end SchemaIndex

end SchemaLang
