import SchemaLang.Definition.Basic
import SchemaLang.Definition.Built
import SchemaLang.Text.Quoted
import SchemaLang.Text.Words

/-!
# Definitions from syntax trees

Every syntax tree has definitions: what the tree says is restated, item by item, in source order.
Of options with the same key the last one counts. An option that the language does not have is left
out, and so is an array size that is no positive number. Each `build` gives a value together with
the options that are left out; `ofNode` is the value and `ignoredOptions` are those options.
-/

namespace SchemaLang

/-- The literal of a token: a string without its quotes, a number, or the text as it stands. -/
def Literal.ofToken (token : Token) : Literal :=
  match token.kind with
  | .stringLiteral => .text (Text.unquoted token.text)
  | .numberLiteral => (Literal.ofNumber? token.text).getD (.text token.text)
  | _ => .text token.text

namespace OptionNode

/-- The literal of an option. -/
def literal (entry : OptionNode) : Literal := .ofToken entry.value

/-- The array size that an option gives: a positive number of 64 bits. -/
def arraySize? (entry : OptionNode) : Option UInt64 :=
  entry.literal.toUnsigned64?.filter (0 < ·)

end OptionNode

/-! ## Building -/

namespace Field

/-- A field with an option set, if it is an option of fields. -/
def withOption? (field : Field) (entry : OptionNode) : Option Field :=
  match entry.key.text with
  | "min" => some { field with min := some entry.literal }
  | "max" => some { field with max := some entry.literal }
  | "encoding" => some { field with encoding := some entry.literal }
  | "length" => some { field with length := some entry.literal }
  | "fromEnd" => some { field with fromEnd := some entry.literal }
  | "arraySize" => entry.arraySize?.map fun size => { field with arraySize := some size }
  | _ => none

/-- A field with what is behind its type. A size between brackets replaces that of an option. -/
def withArray (field : Field) : Option ArrayNode → Field
  | none => field
  | some ⟨none⟩ => { field with isArray := true }
  | some ⟨some token⟩ =>
    { field with isArray := true, arraySize := readUnsigned64? token.text }

/-- Builds the field of a node. -/
def build (node : FieldNode) : Built Field := do
  let withOptions ← Built.withOptions .field withOption?
    { name := node.name.text, type := node.type.text, optional := node.optional.isSome }
    (node.options.getD [])
  return { withOptions.withArray node.array with default := node.default.map Literal.ofToken }

end Field

/-- Builds the fields of a node. A bare type is one field, named after the type. -/
def FieldSet.build : ParamsNode → Built FieldSet
  | .named type => pure (.single { name := Text.lowerCamel type.text, type := type.text })
  | .block fields => .many <$> fields.mapM Field.build

namespace Method

/-- A method with an option set, if it is an option of methods. -/
def withOption? (method : Method) (entry : OptionNode) : Option Method :=
  if entry.key.text = "timeout" then some { method with timeout := some entry.literal } else none

/-- Builds the method of a node. -/
def build (node : MethodNode) : Built Method := do
  let fields ← FieldSet.build node.params
  let returns ← FieldSet.build node.returns
  Built.withOptions .method withOption? { name := node.name.text, fields, returns }
    (node.options.getD [])

end Method

/-- Builds the schema of a node. -/
def Schema.build (node : SchemaNode) : Built Schema :=
  .mk node.name.text <$> node.fields.mapM Field.build

/--
Builds the plugin of a node. Without a name of its own it goes by the first segment, capitalized.
-/
def Plugin.build (node : PluginNode) : Built Plugin :=
  let asName := node.asName.elim (Text.upperCamel node.first.text) Token.text
  .mk node.name asName <$> node.methods.mapM Method.build

/-- Builds the definition of an item. -/
def Definition.build : ItemNode → Built Definition
  | .schema node => .schema <$> Schema.build node
  | .plugin node => .plugin <$> Plugin.build node

/-! ## Definitions by themselves -/

namespace Field

/-- A field with an option set. -/
def withOption (field : Field) (entry : OptionNode) : Field := (field.withOption? entry).getD field

/-- The field of a node. -/
def ofNode (node : FieldNode) : Field := (build node).value

theorem ofNode_eq (node : FieldNode) : ofNode node =
    { ((node.options.getD []).foldl withOption
        { name := node.name.text, type := node.type.text,
          optional := node.optional.isSome }).withArray node.array with
      default := node.default.map Literal.ofToken } := by
  rw [ofNode, build, Built.value_bind, Built.value_withOptions]
  rfl

end Field

/-- The fields of a node. -/
def FieldSet.ofNode (node : ParamsNode) : FieldSet := (build node).value

theorem FieldSet.ofNode_block (fields : List FieldNode) :
    ofNode (.block fields) = .many (fields.map Field.ofNode) :=
  congrArg many (Built.value_mapM Field.build fields)

namespace Method

/-- A method with an option set. -/
def withOption (method : Method) (entry : OptionNode) : Method :=
  (method.withOption? entry).getD method

/-- The method of a node. -/
def ofNode (node : MethodNode) : Method := (build node).value

theorem ofNode_eq (node : MethodNode) : ofNode node =
    (node.options.getD []).foldl withOption
      { name := node.name.text, fields := .ofNode node.params, returns := .ofNode node.returns } :=
  Built.value_withOptions _ _ _ _

end Method

/-- The schema of a node. -/
def Schema.ofNode (node : SchemaNode) : Schema := (build node).value

theorem Schema.ofNode_eq (node : SchemaNode) :
    ofNode node = ⟨node.name.text, node.fields.map Field.ofNode⟩ :=
  congrArg (mk node.name.text) (Built.value_mapM Field.build node.fields)

/-- The plugin of a node. -/
def Plugin.ofNode (node : PluginNode) : Plugin := (build node).value

theorem Plugin.ofNode_eq (node : PluginNode) : ofNode node =
    ⟨node.name, node.asName.elim (Text.upperCamel node.first.text) Token.text,
      node.methods.map Method.ofNode⟩ :=
  congrArg (mk _ _) (Built.value_mapM Method.build node.methods)

/-- The definition of an item. -/
def Definition.ofNode (node : ItemNode) : Definition := (build node).value

theorem Definition.ofNode_schema (node : SchemaNode) :
    ofNode (.schema node) = .schema ⟨node.name.text, node.fields.map Field.ofNode⟩ :=
  congrArg schema (Schema.ofNode_eq node)

theorem Definition.ofNode_plugin (node : PluginNode) :
    ofNode (.plugin node) = .plugin ⟨node.name,
      node.asName.elim (Text.upperCamel node.first.text) Token.text,
      node.methods.map Method.ofNode⟩ :=
  congrArg plugin (Plugin.ofNode_eq node)

/-! ## Options that are left out -/

/-- The options of a field that have no effect. -/
def FieldNode.ignoredOptions (node : FieldNode) : List IgnoredOption := (Field.build node).ignored

/-- The options among parameters or results that have no effect. -/
def ParamsNode.ignoredOptions (node : ParamsNode) : List IgnoredOption :=
  (FieldSet.build node).ignored

theorem ParamsNode.ignoredOptions_block (fields : List FieldNode) :
    ignoredOptions (.block fields) = fields.flatMap FieldNode.ignoredOptions :=
  (Built.ignored_map _ _).trans (Built.ignored_mapM Field.build fields)

/-- The options of a method that have no effect, after those of its parameters and results. -/
def MethodNode.ignoredOptions (node : MethodNode) : List IgnoredOption :=
  (Method.build node).ignored

/-- The options of an item that have no effect. -/
def ItemNode.ignoredOptions (node : ItemNode) : List IgnoredOption :=
  (Definition.build node).ignored

theorem ItemNode.ignoredOptions_schema (node : SchemaNode) :
    ignoredOptions (.schema node) = node.fields.flatMap FieldNode.ignoredOptions :=
  calc
    ignoredOptions (.schema node) = (Schema.build node).ignored := Built.ignored_map _ _
    _ = (node.fields.mapM Field.build).ignored := Built.ignored_map _ _
    _ = node.fields.flatMap FieldNode.ignoredOptions := Built.ignored_mapM _ _

theorem ItemNode.ignoredOptions_plugin (node : PluginNode) :
    ignoredOptions (.plugin node) = node.methods.flatMap MethodNode.ignoredOptions :=
  calc
    ignoredOptions (.plugin node) = (Plugin.build node).ignored := Built.ignored_map _ _
    _ = (node.methods.mapM Method.build).ignored := Built.ignored_map _ _
    _ = node.methods.flatMap MethodNode.ignoredOptions := Built.ignored_mapM _ _

end SchemaLang
