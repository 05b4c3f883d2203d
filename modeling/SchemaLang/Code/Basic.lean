import SchemaLang.Definition.Basic

/-!
# Generated code

The parts of generated code as data: types, expressions, structs with a default for each field, and
traits with methods. A file of generated code has the structs first and the traits after them.
-/

namespace SchemaLang.Code

-- Powers are those of the core library, also where another power is in scope.
attribute [local instance (high)] instPowNat

/-- A type of generated code. -/
inductive CodeType where
  | integer (signed : Bool) (bits : Nat)
  | bool
  | string
  | bytes
  | struct (name : String)
  | list (item : CodeType)
  | optional (value : CodeType)
  deriving DecidableEq, Repr

/-- The type that holds a value of a primitive type. -/
def CodeType.ofPrimitive : Primitive → CodeType
  | .int8 => integer true 8
  | .int16 => integer true 16
  | .int32 => integer true 32
  | .int64 => integer true 64
  | .uint8 => integer false 8
  | .uint16 => integer false 16
  | .uint32 => integer false 32
  | .uint64 => integer false 64
  | .bigint => integer false 64
  | .bool => bool
  | .string | .string8 | .string16 | .string32 | .string64 => string
  | .byteN | .byte8 | .byte16 | .byte32 | .byte64 => bytes

/-- Whether a type holds an integer. -/
def CodeType.admits (n : Int) : CodeType → Bool
  | integer true bits => -2 ^ (bits - 1) ≤ n && n < 2 ^ (bits - 1)
  | integer false bits => 0 ≤ n && n < 2 ^ bits
  | _ => false

/-- An expression of generated code. -/
inductive Expression where
  | integer (value : Int)
  | bool (value : Bool)
  /-- A text as a string. -/
  | string (text : String)
  /-- The bytes of a text. -/
  | bytes (text : String)
  | emptyString
  | emptyList
  /-- The default of a struct. -/
  | structDefault (name : String)
  | none
  | some (value : Expression)
  deriving DecidableEq, Repr

/-- A remark about a field that its type does not show. -/
inductive Remark where
  | encodedAs (type : Primitive)
  | exactLength (bytes : UInt64)
  | untilEnd (bytes : UInt64)
  | itemCount (items : UInt64)
  deriving DecidableEq, Repr

/-- A field of a struct. -/
structure StructField where
  remarks : List Remark
  name : String
  type : CodeType
  default : Expression
  deriving DecidableEq, Repr

/-- A struct and its defaults. -/
structure Struct where
  name : String
  fields : List StructField
  deriving DecidableEq, Repr

/-- A method of a trait. -/
structure TraitMethod where
  timeout : Option Literal
  name : String
  parameters : List (String × CodeType)
  results : List CodeType
  deriving DecidableEq

/-- A trait, with the dotted name of its plugin. -/
structure Trait where
  plugin : String
  name : String
  methods : List TraitMethod
  deriving DecidableEq

/-- A file of generated code, perhaps within a module. -/
structure CodeFile where
  module : Option String
  structs : List Struct
  traits : List Trait
  deriving DecidableEq

end SchemaLang.Code
