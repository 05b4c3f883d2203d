import SchemaLang.Token.Basic

/-!
# Syntax trees

The shape of a schema source: one type of node for each rule of the grammar. The nodes hold the
tokens that carry information; reserved words and punctuation are left out, and so is the order in
which a method gives its parameters and its results.
-/

namespace SchemaLang

/-- An option between parentheses: a key and its value. -/
structure OptionNode where
  key : Token
  value : Token
  deriving DecidableEq, Repr

/-- The brackets of an array, with the number of items if it is written. -/
structure ArrayNode where
  size : Option Token
  deriving DecidableEq, Repr

/-- A field: its name, type and attributes. -/
structure FieldNode where
  name : Token
  optional : Option Token
  type : Token
  options : Option (List OptionNode)
  array : Option ArrayNode
  default : Option Token
  deriving DecidableEq, Repr

/-- The parameters or the results of a method: a block of fields, or one type by name. -/
inductive ParamsNode where
  | block (fields : List FieldNode)
  | named (type : Token)
  deriving DecidableEq, Repr

/-- A method of a plugin. -/
structure MethodNode where
  name : Token
  options : Option (List OptionNode)
  params : ParamsNode
  returns : ParamsNode
  deriving DecidableEq, Repr

/-- A schema: a name and fields. -/
structure SchemaNode where
  name : Token
  fields : List FieldNode
  deriving DecidableEq, Repr

/-- A plugin: a dotted name of at least one segment, perhaps another name, and methods. -/
structure PluginNode where
  first : Token
  more : List Token
  asName : Option Token
  methods : List MethodNode
  deriving DecidableEq, Repr

namespace PluginNode

/-- The segments of the dotted name. -/
def path (node : PluginNode) : List Token := node.first :: node.more

/-- The dotted name. -/
def name (node : PluginNode) : String := ".".intercalate (node.path.map (·.text))

end PluginNode

/-- A definition of a source. -/
inductive ItemNode where
  | schema (node : SchemaNode)
  | plugin (node : PluginNode)
  deriving DecidableEq, Repr

namespace ItemNode

/-- The name that an item defines. -/
def name : ItemNode → String
  | schema node => node.name.text
  | plugin node => node.name

/-- The token at which the name of an item starts. -/
def nameToken : ItemNode → Token
  | schema node => node.name
  | plugin node => node.first

end ItemNode

end SchemaLang
