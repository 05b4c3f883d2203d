import SchemaLang.Definition.Literal
import SchemaLang.Definition.Primitive

/-!
# Definitions

What a schema source defines: schemas, which are records of fields, and plugins, which are sets of
methods. A field has a type by name, which is a primitive type or a schema, and attributes.
-/

namespace SchemaLang

/-- A field of a schema, or a parameter or a result of a method. -/
structure Field where
  name : String
  type : String
  optional : Bool := false
  isArray : Bool := false
  arraySize : Option UInt64 := none
  default : Option Literal := none
  min : Option Literal := none
  max : Option Literal := none
  encoding : Option Literal := none
  length : Option Literal := none
  fromEnd : Option Literal := none
  deriving DecidableEq

/-- The primitive type of a field, if it has one. -/
def Field.primitive? (field : Field) : Option Primitive := Primitive.ofName? field.type

/-- The parameters or the results of a method: one field for a bare type, or a block of fields. -/
inductive FieldSet where
  | single (field : Field)
  | many (fields : List Field)
  deriving DecidableEq

namespace FieldSet

/-- The fields in order. -/
def toList : FieldSet → List Field
  | single field => [field]
  | many fields => fields

/-- Whether a set comes from a bare type. -/
def isSingle : FieldSet → Bool
  | single _ => true
  | many _ => false

end FieldSet

/-- A method of a plugin. -/
structure Method where
  name : String
  fields : FieldSet
  returns : FieldSet
  timeout : Option Literal := none
  deriving DecidableEq

/-- A record of fields. -/
structure Schema where
  name : String
  fields : List Field
  deriving DecidableEq

/-- A set of methods under a dotted name, and the name it goes by. -/
structure Plugin where
  name : String
  asName : String
  methods : List Method
  deriving DecidableEq

/-- A schema or a plugin. -/
inductive Definition where
  | schema (schema : Schema)
  | plugin (plugin : Plugin)
  deriving DecidableEq

namespace Definition

/-- The name of a definition. -/
def name : Definition → String
  | schema s => s.name
  | plugin p => p.name

/-- The schema that a definition is. -/
def schema? : Definition → Option Schema
  | schema s => some s
  | plugin _ => none

/-- The plugin that a definition is. -/
def plugin? : Definition → Option Plugin
  | schema _ => none
  | plugin p => some p

/-- The schemas among definitions. -/
def schemas (definitions : List Definition) : List Schema := definitions.filterMap schema?

/-- The plugins among definitions. -/
def plugins (definitions : List Definition) : List Plugin := definitions.filterMap plugin?

end Definition

end SchemaLang
