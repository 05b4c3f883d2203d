import SchemaLang.Definition.Decode
import SchemaLang.Definition.Encode
import SchemaLang.Json.Reader
import SchemaLang.Json.Writer

/-!
# The interchange text of definitions

Definitions are exchanged as JSON texts: compact ones, spread ones for people, and any text that
the reader of JSON values and the reader of definitions accept.
-/

namespace SchemaLang.Definition

/-- The compact text of definitions. -/
def compactText (definitions : List Definition) : String := (listToJson definitions).compact

/-- The spread text of definitions. -/
def spreadText (definitions : List Definition) : String := (listToJson definitions).spread

/-- The definitions of a text. -/
def ofText? (text : String) : Option (List Definition) := Json.read? text >>= listOfJson?

end SchemaLang.Definition
