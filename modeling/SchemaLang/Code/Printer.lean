import SchemaLang.Code.Basic
import SchemaLang.Text.Literal

/-!
# The text of generated code

Structs and traits are written line by line. Each is a section of its own that ends in a line feed,
and a blank line stands between sections. A module wraps all sections in one pair of braces without
further indentation.
-/

namespace SchemaLang.Code

/-- The text of a type. -/
def CodeType.text : CodeType → String
  | integer signed bits => (if signed then "i" else "u") ++ toString bits
  | bool => "bool"
  | string => "String"
  | bytes => "Vec<u8>"
  | struct name => name
  | list item => "Vec<" ++ item.text ++ ">"
  | optional value => "Option<" ++ value.text ++ ">"

/-- The text of an expression. -/
def Expression.text : Expression → String
  | integer value => toString value
  | bool value => if value then "true" else "false"
  | string value => Text.literal value ++ ".to_string()"
  | bytes value => Text.literal value ++ ".as_bytes().to_vec()"
  | emptyString => "String::new()"
  | emptyList => "Vec::new()"
  | structDefault name => name ++ "::default()"
  | none => "None"
  | some value => "Some(" ++ value.text ++ ")"

/-- The text of a remark. -/
def Remark.text : Remark → String
  | encodedAs type => "Encoded as \x60" ++ type.name ++ "\x60."
  | exactLength bytes => "Exactly " ++ toString bytes ++ " bytes."
  | untilEnd bytes => "Runs until " ++ toString bytes ++ " bytes before the end of the buffer."
  | itemCount items => "Holds " ++ toString items ++ " items."

namespace Struct

/-- The lines that declare a field. -/
def declarationLines (field : StructField) : List String :=
  field.remarks.map (fun remark => "    /// " ++ remark.text) ++
    ["    pub " ++ field.name ++ ": " ++ field.type.text ++ ","]

/-- The line that sets a field to its default. -/
def defaultLine (field : StructField) : String :=
  "            " ++ field.name ++ ": " ++ field.default.text ++ ","

/-- The lines of the default of a struct. -/
def defaultLines (struct : Struct) : List String :=
  match struct.fields with
  | [] => ["        " ++ struct.name ++ " \x7b\x7d"]
  | fields => ["        " ++ struct.name ++ " \x7b"] ++ fields.map defaultLine ++ ["        \x7d"]

/-- The lines of a struct. -/
def lines (struct : Struct) : List String :=
  ["#[derive(Debug, Clone, PartialEq)]", "pub struct " ++ struct.name ++ " \x7b"] ++
    struct.fields.flatMap declarationLines ++
    ["\x7d", "", "impl Default for " ++ struct.name ++ " \x7b", "    fn default() -> Self \x7b"] ++
    struct.defaultLines ++ ["    \x7d", "\x7d"]

/-- The text of a struct. -/
def text (struct : Struct) : String := "\n".intercalate struct.lines ++ "\n"

end Struct

namespace Trait

/-- The text of the results of a method: nothing, one type, or several in parentheses. -/
def resultsText : List CodeType → String
  | [] => "()"
  | [type] => type.text
  | types => "(" ++ ", ".intercalate (types.map CodeType.text) ++ ")"

/-- The line that declares a method. -/
def signature (method : TraitMethod) : String :=
  let parameters := method.parameters.map fun (name, type) => ", " ++ name ++ ": " ++ type.text
  "    fn " ++ method.name ++ "(&self" ++ String.join parameters ++ ") -> " ++
    resultsText method.results ++ ";"

/-- The lines of a method. -/
def methodLines (method : TraitMethod) : List String :=
  method.timeout.toList.map (fun timeout => "    /// Timeout: " ++ timeout.display ++ ".") ++
    [signature method]

/-- The text of a method without a line feed at its end. -/
def methodText (method : TraitMethod) : String := "\n".intercalate (methodLines method)

/-- The text of a trait. -/
def text (trait : Trait) : String :=
  "/// Methods of plugin \x60" ++ trait.plugin ++ "\x60.\npub trait " ++ trait.name ++ " \x7b\n" ++
    (if trait.methods = [] then ""
      else "\n\n".intercalate (trait.methods.map methodText) ++ "\n") ++ "\x7d\n"

end Trait

namespace CodeFile

/-- The texts of the structs and the traits. -/
def sections (file : CodeFile) : List String :=
  file.structs.map Struct.text ++ file.traits.map Trait.text

/-- The text of a file. -/
def text (file : CodeFile) : String :=
  let body := "\n".intercalate file.sections
  "// Code generated by sia. DO NOT EDIT.\n\n" ++
    match file.module with
    | some name => "pub mod " ++ name ++ " \x7b\n" ++ body ++ "\x7d\n"
    | none => body

end CodeFile

end SchemaLang.Code
