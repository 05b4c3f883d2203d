import SchemaLang.Definition.Basic
import SchemaLang.Json.Value

/-!
# Definitions from JSON values

A record of the interchange form is an object, with its members in any order, or an array of its
members in the order of declaration. Unknown members of an object are passed over, and a known
member must not stand twice. Optional members may be missing, in an array only at its end, and an
optional literal or size may be null.
-/

namespace SchemaLang

-- Powers are those of the core library, also where another power is in scope.
attribute [local instance (high)] instPowNat

namespace Json

/-- The value under a key that stands at most once; none for a key that stands twice. -/
def single? (members : List (String × Json)) (key : String) : Option (Option Json) :=
  match valuesOf key members with
  | [] => some none
  | [value] => some (some value)
  | _ => none

/-- The members of a record by the order of its keys. A missing member is none in the list. -/
def record? (keys : List String) : Json → Option (List (Option Json))
  | object members => keys.mapM (single? members)
  | array items =>
    if items.length ≤ keys.length then
      some (items.map some ++ List.replicate (keys.length - items.length) none)
    else none
  | _ => none

/-- A text. -/
def text? : Json → Option String
  | string value => some value
  | _ => none

/-- A flag that is not set when it is missing. -/
def flagOf? : Option Json → Option Bool
  | none => some false
  | some (bool value) => some value
  | some _ => none

/-- A value that may be missing or null. -/
def nullable? {α : Type} (decode? : Json → Option α) : Option Json → Option (Option α)
  | none => some none
  | some null => some none
  | some value => (decode? value).map some

/-- An unsigned integer of 64 bits. -/
def unsigned64? : Json → Option UInt64
  | integer n => if 0 ≤ n ∧ n < 2 ^ (64 : Nat) then some (.ofNat n.toNat) else none
  | _ => none

/-- A list of values of one kind. -/
def list? {α : Type} (decode? : Json → Option α) : Json → Option (List α)
  | array items => items.mapM decode?
  | _ => none

end Json

/-- A literal. An integer beyond 64 bits with a sign is read as a binary number. -/
def Literal.ofJson? : Json → Option Literal
  | .bool value => some (.bool value)
  | .integer n => some (if inSigned64 n then .integer (.ofInt n) else .float (.ofInt n))
  | .float value => some (.float value)
  | .string value => some (.text value)
  | _ => none

/-- The keys of a field. -/
def Field.keys : List String :=
  ["name", "type", "optional", "isArray", "arraySize", "defaultValue", "min", "max", "encoding",
    "length", "fromEnd"]

/-- A field. -/
def Field.ofJson? (value : Json) : Option Field := do
  match ← value.record? Field.keys with
  | [some name, some type, optional, isArray, arraySize, default, min, max, encoding, length,
      fromEnd] =>
    return {
      name := ← name.text?
      type := ← type.text?
      optional := ← Json.flagOf? optional
      isArray := ← Json.flagOf? isArray
      arraySize := ← Json.nullable? Json.unsigned64? arraySize
      default := ← Json.nullable? Literal.ofJson? default
      min := ← Json.nullable? Literal.ofJson? min
      max := ← Json.nullable? Literal.ofJson? max
      encoding := ← Json.nullable? Literal.ofJson? encoding
      length := ← Json.nullable? Literal.ofJson? length
      fromEnd := ← Json.nullable? Literal.ofJson? fromEnd }
  | _ => none

/-- A set of fields: one field if the value can be read as one, else a list of fields. -/
def FieldSet.ofJson? (value : Json) : Option FieldSet :=
  match Field.ofJson? value with
  | some field => some (.single field)
  | none => (value.list? Field.ofJson?).map .many

/-- The keys of a method. -/
def Method.keys : List String := ["name", "fields", "returns", "timeout"]

/-- A method. -/
def Method.ofJson? (value : Json) : Option Method := do
  match ← value.record? Method.keys with
  | [some name, some fields, some returns, timeout] =>
    return {
      name := ← name.text?
      fields := ← FieldSet.ofJson? fields
      returns := ← FieldSet.ofJson? returns
      timeout := ← Json.nullable? Literal.ofJson? timeout }
  | _ => none

/-- The keys of a schema. -/
def Schema.keys : List String := ["name", "fields"]

/-- A schema. -/
def Schema.ofJson? (value : Json) : Option Schema := do
  match ← value.record? Schema.keys with
  | [some name, some fields] =>
    return { name := ← name.text?, fields := ← fields.list? Field.ofJson? }
  | _ => none

/-- The keys of a plugin. -/
def Plugin.keys : List String := ["name", "as", "methods"]

/-- A plugin. -/
def Plugin.ofJson? (value : Json) : Option Plugin := do
  match ← value.record? Plugin.keys with
  | [some name, some asName, some methods] =>
    return {
      name := ← name.text?
      asName := ← asName.text?
      methods := ← methods.list? Method.ofJson? }
  | _ => none

namespace Definition

/-- The key under which a definition says what it is. -/
def tagKey : String := "type"

/-- What a definition says it is, and the value without that. -/
def tagged? : Json → Option (String × Json)
  | .object members =>
    match Json.valuesOf tagKey members with
    | [.string tag] => some (tag, .object (members.filter (·.1 ≠ tagKey)))
    | _ => none
  | .array (.string tag :: rest) => some (tag, .array rest)
  | _ => none

/-- A definition. -/
def ofJson? (value : Json) : Option Definition := do
  let (tag, value) ← tagged? value
  if tag = "schema" then (Schema.ofJson? value).map .schema
  else if tag = "plugin" then (Plugin.ofJson? value).map .plugin
  else none

/-- A list of definitions. -/
def listOfJson? (value : Json) : Option (List Definition) := value.list? ofJson?

end Definition

end SchemaLang
