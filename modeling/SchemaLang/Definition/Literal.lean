import SchemaLang.Number.Layout

/-!
# Literals

The values of options and defaults. A number without a point that fits into a signed integer of 64
bits is kept as an integer, any other number as a binary floating point number. Truth values only
come from definitions in JSON.
-/

namespace SchemaLang

-- Powers are those of the core library, also where another power is in scope.
attribute [local instance (high)] instPowNat

/-- A value of an option or a default. -/
inductive Literal where
  | bool (value : Bool)
  | integer (value : Int64)
  | float (value : Binary64)
  | text (value : String)
  deriving DecidableEq

namespace Literal

/-- The literal that a number denotes. -/
def ofNumber? (text : String) : Option Literal :=
  match if text.toList.contains '.' then none else readSigned64? text with
  | some n => some (integer n)
  | none => (Binary64.read? text).map float

/-- The unsigned integer of 64 bits that a literal is equal to; the next power of two counts too. -/
def toUnsigned64? : Literal → Option UInt64
  | integer value => if 0 ≤ value.toInt then some (.ofNat value.toInt.toNat) else none
  | float value =>
    match value.toNat? with
    | some n => if n ≤ 2 ^ (64 : Nat) then some (.ofNat (min n (2 ^ (64 : Nat) - 1))) else none
    | none => none
  | _ => none

/-- The binary number nearest to a literal that is a number. -/
def toBinary? : Literal → Option Binary64
  | integer value => some (.ofInt value.toInt)
  | float value => some value
  | _ => none

/-- The text of a literal that is a text. -/
def toText? : Literal → Option String
  | text value => some value
  | _ => none

/-- A literal as it is shown. -/
def display : Literal → String
  | bool value => if value then "true" else "false"
  | integer value => toString value.toInt
  | float value => NumberFormat.plain.lay value
  | text value => value

end Literal

end SchemaLang
