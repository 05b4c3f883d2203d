import SchemaLang.Code.Basic
import SchemaLang.Code.Error
import SchemaLang.Code.Names
import SchemaLang.Resolve.Default
import SchemaLang.Resolve.Order
import SchemaLang.Resolve.Width

/-!
# Code from definitions

Every schema becomes a struct and every plugin a trait. The structs stand in the order of
dependencies, the traits in the order of declaration. The first error met in this order is the error
of the whole.
-/

namespace SchemaLang.Code

open CodeError (ofResolve)

/-- The type of a field. -/
def fieldType (index : SchemaIndex) (field : Field) : Except CodeError CodeType := do
  let base :=
    match ← ofResolve (index.resolve field) with
    | .primitive type => CodeType.ofPrimitive type
    | .schema schema => .struct (typeName schema.name)
  let type := if field.isArray then base.list else base
  return if field.optional then type.optional else type

/-- The remark on the encoding of a field. -/
def encodingRemarks (field : Field) : Except CodeError (List Remark) :=
  match field.primitive? with
  | some .string => .ok (field.encodedType?.toList.map .encodedAs)
  | some .byteN => do
    match ← ofResolve field.fixedLength with
    | .exact bytes => return [.exactLength bytes]
    | .fromEnd bytes => return [.untilEnd bytes]
  | _ => .ok []

/-- The remarks on a field. -/
def remarks (field : Field) : Except CodeError (List Remark) := do
  return (← encodingRemarks field) ++ field.arraySize.toList.map .itemCount

/-- The expression for a literal as the value of a primitive type, if the type holds it. -/
def literalExpression? (type : Primitive) : Literal → Option Expression
  | .text text =>
    if type.isString then some (.string text)
    else if type.isBool then
      if text = "true" then some (.bool true)
      else if text = "false" then some (.bool false)
      else none
    else if type.isBytes then some (.bytes text)
    else none
  | .integer n =>
    if type.isString then some (.string (Literal.integer n).display)
    else if (CodeType.ofPrimitive type).admits n.toInt then some (.integer n.toInt)
    else none
  | .bool value =>
    if type.isString then some (.string (Literal.bool value).display)
    else if type.isBool then some (.bool value)
    else none
  | .float value =>
    if type.isString then some (.string (Literal.float value).display) else none

/-- The expression for a default value of a field. -/
def valueExpression (field : Field) : DefaultValue → Except CodeError Expression
  | .explicit value =>
    match field.primitive?.bind (literalExpression? · value) with
    | some expression => .ok expression
    | none => .error (.unfitDefault value field.name field.type)
  | .emptyString => .ok .emptyString
  | .zero => .ok (.integer 0)
  | .false => .ok (.bool false)
  | .emptyBytes | .emptyArray => .ok .emptyList
  | .schema name _ => .ok (.structDefault (typeName name))

/--
The default of a field. An optional field without a written default is absent, even though its type
has a default of its own, which must exist all the same.
-/
def defaultExpression (index : SchemaIndex) (field : Field) : Except CodeError Expression :=
  if field.isArray && field.default.isSome then .error (.arrayDefault field.name)
  else do
    let value ← ofResolve (index.defaultOf field)
    if field.optional then
      if field.default.isSome then return .some (← valueExpression field value)
      else return .none
    else valueExpression field value

/-- The field of a struct. -/
def structField (index : SchemaIndex) (field : Field) : Except CodeError StructField := do
  let remarks ← remarks field
  let type ← fieldType index field
  let default ← defaultExpression index field
  return ⟨remarks, memberName field.name, type, default⟩

/-- The struct of a schema. -/
def structOf (index : SchemaIndex) (schema : Schema) : Except CodeError Struct := do
  return ⟨typeName schema.name, ← schema.fields.mapM (structField index)⟩

/-- A parameter of a method. -/
def parameter (index : SchemaIndex) (field : Field) : Except CodeError (String × CodeType) := do
  return (memberName field.name, ← fieldType index field)

/-- The method of a trait. -/
def traitMethod (index : SchemaIndex) (method : Method) : Except CodeError TraitMethod := do
  let parameters ← method.fields.toList.mapM (parameter index)
  let results ← method.returns.toList.mapM (fieldType index)
  return ⟨method.timeout, memberName method.name, parameters, results⟩

/-- The trait of a plugin. -/
def traitOf (index : SchemaIndex) (plugin : Plugin) : Except CodeError Trait := do
  return ⟨plugin.name, typeName plugin.asName, ← plugin.methods.mapM (traitMethod index)⟩

/-- The code of definitions. -/
def fileOf (module : Option String) (definitions : List Definition) :
    Except CodeError CodeFile := do
  let index := SchemaIndex.ofDefinitions definitions
  let order ← ofResolve index.dependencyOrder
  let structs ← order.mapM (structOf index)
  let traits ← (Definition.plugins definitions).mapM (traitOf index)
  return ⟨module.map memberName, structs, traits⟩

end SchemaLang.Code
