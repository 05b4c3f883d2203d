import SchemaLang.Resolve.Index

/-!
# Widths and lengths

The string type a field is encoded as, and the length of a byte array. A string without a width
takes the narrowest one whose length can count to the `max` of the field, and 255 without a `max`.
A fractional `max` is rounded up.
-/

namespace SchemaLang

-- Powers are those of the core library, also where another power is in scope.
attribute [local instance (high)] instPowNat

/-- The greatest length of a string without a `max`. -/
def defaultStringMax : Nat := 255

/-- The greatest unsigned number of 64 bits. -/
def maxUnsigned64 : Nat := 2 ^ (64 : Nat) - 1

/-- The narrowest string type whose length can count to a number. -/
def Primitive.stringFor (max : Nat) : Primitive :=
  if max ≤ 2 ^ (8 : Nat) - 1 then .string8
  else if max ≤ 2 ^ (16 : Nat) - 1 then .string16
  else if max ≤ 2 ^ (32 : Nat) - 1 then .string32
  else .string64

/--
A number rounded up to a natural number of at most 64 bits. Negative numbers and the undefined one
give zero, and what is beyond the range gives the greatest number.
-/
def Binary64.ceilUnsigned64 : Binary64 → Nat
  | .finite negative rank =>
    if negative then 0
    else Nat.min maxUnsigned64 ((units rank + unitsPerOne - 1) / unitsPerOne)
  | .infinite negative => if negative then 0 else maxUnsigned64
  | .nan => 0

/-- The greatest length that a `max` option allows; a text allows any. -/
def Literal.maxLength? (max : Literal) : Option Nat := max.toBinary?.map Binary64.ceilUnsigned64

namespace Field

/-- The primitive type a field is encoded as, which for a string has a width. -/
def encodedType? (field : Field) : Option Primitive :=
  field.primitive?.map fun type =>
    if type = .string then
      .stringFor ((field.max.bind Literal.maxLength?).getD defaultStringMax)
    else type

end Field

/-- How many bytes a byte array of fixed length holds. -/
inductive FixedLength where
  /-- This many bytes. -/
  | exact (bytes : UInt64)
  /-- All but this many bytes at the end of the buffer. -/
  | fromEnd (bytes : UInt64)
  deriving DecidableEq, Repr

/-- The length of a field that is a byte array; an exact length goes before one from the end. -/
def Field.fixedLength (field : Field) : Except ResolveError FixedLength :=
  match field.length.bind Literal.toUnsigned64? with
  | some bytes => .ok (.exact bytes)
  | none =>
    match field.fromEnd.bind Literal.toUnsigned64? with
    | some bytes => .ok (.fromEnd bytes)
    | none => .error (.missingFixedLength field.name)

end SchemaLang
