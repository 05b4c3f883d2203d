import SchemaLang.Code.Generate
import SchemaLang.Source.Definitions

/-!
# The record of a run

What is noted while a source becomes definitions and definitions become code: one entry per stage
that is completed, and a warning for each option that has no effect.
-/

namespace SchemaLang

/-- An entry of the record of a run. -/
inductive Event where
  | tokenized (tokens strays : Nat)
  | parsed (items : Nat)
  | ignored (option : IgnoredOption)
  | built (definitions : Nat)
  | compiled (definitions : Nat)
  | generated (sections : Nat)
  deriving DecidableEq, Repr

namespace Event

/-- Whether an entry is a warning. -/
def isWarning : Event → Bool
  | ignored _ => true
  | _ => false

/-- The words of an entry. -/
def message : Event → String
  | tokenized .. => "tokenized schema source"
  | parsed _ => "parsed compilation unit"
  | ignored option =>
    match option.owner with
    | .field => "ignoring unsupported field option"
    | .method => "ignoring unsupported method option"
  | built _ => "built schema IR"
  | compiled _ => "compiled schema"
  | generated _ => "generated Rust code"

/-- The entries for building the definitions of items. -/
def ofItems (nodes : List ItemNode) : List Event :=
  let definitions := nodes.mapM Definition.build
  definitions.ignored.map ignored ++ [built definitions.value.length]

theorem ofItems_eq (nodes : List ItemNode) :
    ofItems nodes =
      (nodes.flatMap ItemNode.ignoredOptions).map ignored ++ [built nodes.length] := by
  rw [ofItems, Built.ignored_mapM, Built.value_mapM, List.length_map]
  rfl

/-- The entries for compiling a source. -/
def ofSource (source : String) : List Event :=
  let stream := TokenStream.ofSource source
  tokenized stream.tokens.length stream.strays.length ::
    match itemsOf source with
    | .error _ => []
    | .ok nodes =>
      parsed nodes.length ::
        match verifyNames nodes with
        | .error _ => []
        | .ok _ => ofItems nodes ++ [compiled nodes.length]

/-- The entries for generating code. -/
def ofDefinitions (definitions : List Definition) : List Event :=
  match Code.fileOf none definitions with
  | .error _ => []
  | .ok file => [generated (file.structs.length + file.traits.length)]

end Event

end SchemaLang
