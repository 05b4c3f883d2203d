/-!
# Primitive types

The twenty types of the schema language that are not schemas, with their spelling, their families
and the serializer that writes an item of an array of them.
-/

namespace SchemaLang

/-- A primitive type. -/
inductive Primitive where
  | int8
  | int16
  | int32
  | int64
  | uint8
  | uint16
  | uint32
  | uint64
  | bool
  | string
  | string8
  | string16
  | string32
  | string64
  | byteN
  | byte8
  | byte16
  | byte32
  | byte64
  | bigint
  deriving DecidableEq, Repr, Inhabited

namespace Primitive

/-- Every primitive type, in the order of declaration. -/
def all : List Primitive :=
  [int8, int16, int32, int64, uint8, uint16, uint32, uint64, bool, string, string8, string16,
    string32, string64, byteN, byte8, byte16, byte32, byte64, bigint]

theorem mem_all (type : Primitive) : type ∈ all := by
  cases type <;> decide

/-- The spelling of a type in sources. -/
def name : Primitive → String
  | int8 => "int8"
  | int16 => "int16"
  | int32 => "int32"
  | int64 => "int64"
  | uint8 => "uint8"
  | uint16 => "uint16"
  | uint32 => "uint32"
  | uint64 => "uint64"
  | bool => "bool"
  | string => "string"
  | string8 => "string8"
  | string16 => "string16"
  | string32 => "string32"
  | string64 => "string64"
  | byteN => "byteN"
  | byte8 => "byte8"
  | byte16 => "byte16"
  | byte32 => "byte32"
  | byte64 => "byte64"
  | bigint => "bigint"

/-- The type with a spelling. -/
def ofName? (text : String) : Option Primitive := all.find? (·.name = text)

theorem ofName?_name (type : Primitive) : ofName? type.name = some type := by
  cases type <;> decide

/-- Whether a type is a signed integer of fixed width. -/
def isSigned : Primitive → Bool
  | int8 | int16 | int32 | int64 => true
  | _ => false

/-- Whether a type is an unsigned integer of fixed width. -/
def isUnsigned : Primitive → Bool
  | uint8 | uint16 | uint32 | uint64 => true
  | _ => false

/-- Whether a type is an integer of fixed width. -/
def isInteger (type : Primitive) : Bool := type.isSigned || type.isUnsigned

/-- Whether a type is the type of truth values. -/
def isBool : Primitive → Bool
  | bool => true
  | _ => false

/-- Whether a type is the string whose width follows from its greatest length. -/
def isGenericString : Primitive → Bool
  | string => true
  | _ => false

/-- Whether a type is a string with a length of a given width. -/
def isSizedString : Primitive → Bool
  | string8 | string16 | string32 | string64 => true
  | _ => false

/-- Whether a type is a string. -/
def isString (type : Primitive) : Bool := type.isGenericString || type.isSizedString

/-- Whether a type is the byte array of fixed length. -/
def isGenericBytes : Primitive → Bool
  | byteN => true
  | _ => false

/-- Whether a type is a byte array with a length of a given width. -/
def isSizedBytes : Primitive → Bool
  | byte8 | byte16 | byte32 | byte64 => true
  | _ => false

/-- Whether a type is a byte array. -/
def isBytes (type : Primitive) : Bool := type.isGenericBytes || type.isSizedBytes

/-- Whether a type is the large integer. -/
def isBigInt : Primitive → Bool
  | bigint => true
  | _ => false

/-- The width in bits of an integer, or of the length in front of a string or a byte array. -/
def width? : Primitive → Option Nat
  | int8 | uint8 | string8 | byte8 => some 8
  | int16 | uint16 | string16 | byte16 => some 16
  | int32 | uint32 | string32 | byte32 => some 32
  | int64 | uint64 | string64 | byte64 => some 64
  | bigint => some 64
  | bool | string | byteN => none

/-- The part of the name of an item serializer that stands for a type. -/
def itemStem : Primitive → String
  | int8 => "Int8"
  | int16 => "Int16"
  | int32 => "Int32"
  | int64 => "Int64"
  | uint8 => "UInt8"
  | uint16 => "UInt16"
  | uint32 => "UInt32"
  | uint64 => "UInt64"
  | bool => "Bool"
  | string => "String"
  | string8 => "String8"
  | string16 => "String16"
  | string32 => "String32"
  | string64 => "String64"
  | byteN => "ByteArrayN"
  | byte8 => "ByteArray8"
  | byte16 => "ByteArray16"
  | byte32 => "ByteArray32"
  | byte64 => "ByteArray64"
  | bigint => "BigInt"

/-- The name of the serializer that writes one item of an array of a type. -/
def itemSerializer (type : Primitive) : String := "serialize" ++ type.itemStem ++ "ArrayItem"

end Primitive

end SchemaLang
