import SchemaLang.Report.Failure
import SchemaLang.Resolve.ItemSerializer
import SchemaLang.Resolve.Order

/-!
# Summaries of definitions

A line for each definition, the order of dependencies, and the item serializers that arrays ask for.
-/

namespace SchemaLang.Report

/-- The line for a definition. -/
def definitionLine : Definition → String
  | .schema s => s!"schema {s.name} ({s.fields.length} fields)"
  | .plugin p => s!"plugin {p.name} as {p.asName} ({p.methods.length} methods)"

/-- The summary of definitions, if their schemas can be ordered. -/
def describe (definitions : List Definition) : Except ResolveError String := do
  let order ← (SchemaIndex.ofDefinitions definitions).dependencyOrder
  let serializers := itemSerializers (Definition.schemas definitions)
  return "\n".intercalate <|
    definitions.map definitionLine ++
      ["dependency order: " ++ ", ".intercalate (order.map (·.name)),
        "array helpers: " ++ ", ".intercalate serializers]

end SchemaLang.Report
