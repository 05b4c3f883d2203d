import SchemaLang.Number.Binary64

/-!
# JSON values

The values of JSON texts. Members of an object keep their order, and a key may stand twice. An
integer that fits into 64 bits, signed or unsigned, is kept apart from the other numbers.
-/

namespace SchemaLang

/-- A JSON value. -/
inductive Json where
  | null
  | bool (value : Bool)
  | integer (value : Int)
  | float (value : Binary64)
  | string (value : String)
  | array (items : List Json)
  | object (members : List (String × Json))

namespace Json

/-- The values that stand under a key, in order. -/
def valuesOf (key : String) (members : List (String × Json)) : List Json :=
  (members.filter (·.1 = key)).map (·.2)

/-- A member that is left out when there is no value. -/
def member? (key : String) (value : Option Json) : List (String × Json) :=
  match value with
  | some value => [(key, value)]
  | none => []

end Json

end SchemaLang
