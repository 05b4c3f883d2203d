import SchemaLang.Resolve.Index

/-!
# The order of dependencies

Schemas are ordered so that each comes after those its fields refer to; beyond that they keep the
order of declaration. A schema is placed once all that it refers to is placed. A schema that
refers to itself, directly or through others, cannot be placed.
-/

namespace SchemaLang.SchemaIndex

mutual

/-- Places a schema of the index after all that it refers to. -/
def place (index : SchemaIndex) (walk : List String) (placed : List Schema) (schema : Schema)
    (hmem : schema ∈ index.schemas) : Except ResolveError (List Schema) :=
  if placed.any (·.name = schema.name) then .ok placed
  else if hwalk : schema.name ∈ walk then .error (.cycle walk schema.name)
  else
    have := unvisited_lt hmem hwalk
    (placeFields index (walk ++ [schema.name]) placed schema.fields).map (· ++ [schema])
termination_by (index.unvisited walk, 0)

/-- Places the schemas that fields refer to. -/
def placeFields (index : SchemaIndex) (walk : List String) (placed : List Schema) :
    List Field → Except ResolveError (List Schema)
  | [] => .ok placed
  | field :: rest =>
    if field.primitive?.isSome then placeFields index walk placed rest
    else
      match h : index.get? field.type with
      | none => .error (.unresolvedType field.type field.name)
      | some schema => do
        let placed ← place index walk placed schema (mem_of_get? h)
        placeFields index walk placed rest
termination_by fields => (index.unvisited walk, fields.length + 1)

end

/-- The schemas of an index, each after those that its fields refer to. -/
def dependencyOrder (index : SchemaIndex) : Except ResolveError (List Schema) :=
  index.schemas.attach.foldlM (fun placed schema => index.place [] placed schema.1 schema.2) []

end SchemaLang.SchemaIndex
