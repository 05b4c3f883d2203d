import SchemaLang.Definition.Basic
import SchemaLang.Resolve.Error

/-!
# Schemas by name

An index holds the schemas of a set of definitions in order of declaration, one for each name. Of
schemas that share a name the first one counts. A field is resolved by the index to a primitive type
or to a schema.

Walks through an index follow fields to the schemas they refer to and keep the names on the way.
A walk that never repeats a name ends: `unvisited_lt` says that the schemas it has not met get
fewer with every step.
-/

namespace SchemaLang

/-- The first schema of each name. -/
def firstOfEachName : List Schema → List Schema
  | [] => []
  | schema :: rest => schema :: (firstOfEachName rest).filter (·.name ≠ schema.name)

theorem pairwise_firstOfEachName (schemas : List Schema) :
    (firstOfEachName schemas).Pairwise (·.name ≠ ·.name) := by
  induction schemas with
  | nil => exact List.Pairwise.nil
  | cons schema rest ih =>
    refine List.pairwise_cons.2 ⟨fun other h => ?_, ih.filter _⟩
    have := (List.mem_filter.1 h).2
    simp only [ne_eq, decide_not, Bool.not_eq_eq_eq_not, Bool.not_true, decide_eq_false_iff_not]
      at this
    exact Ne.symm this

/-- Schemas with distinct names, in order of declaration. -/
structure SchemaIndex where
  schemas : List Schema
  distinct : schemas.Pairwise (·.name ≠ ·.name)

/-- What the type of a field refers to. -/
inductive Resolved where
  | primitive (type : Primitive)
  | schema (schema : Schema)
  deriving DecidableEq

namespace SchemaIndex

/-- The index of a list of schemas. -/
def ofSchemas (schemas : List Schema) : SchemaIndex :=
  ⟨firstOfEachName schemas, pairwise_firstOfEachName schemas⟩

/-- The index of the schemas among definitions. -/
def ofDefinitions (definitions : List Definition) : SchemaIndex :=
  ofSchemas (Definition.schemas definitions)

/-- The schema of a name. -/
def get? (index : SchemaIndex) (name : String) : Option Schema :=
  index.schemas.find? (·.name = name)

/-- Whether a schema has a name. -/
def contains (index : SchemaIndex) (name : String) : Bool := (index.get? name).isSome

theorem mem_of_get? {index : SchemaIndex} {name : String} {schema : Schema}
    (h : index.get? name = some schema) : schema ∈ index.schemas :=
  List.mem_of_find?_eq_some h

/-- What the type of a field refers to. -/
def resolve (index : SchemaIndex) (field : Field) : Except ResolveError Resolved :=
  match field.primitive? with
  | some type => .ok (.primitive type)
  | none =>
    match index.get? field.type with
    | some schema => .ok (.schema schema)
    | none => .error (.unresolvedType field.type field.name)

/-- How many schemas a walk has not met. -/
def unvisited (index : SchemaIndex) (walk : List String) : Nat :=
  (index.schemas.filter fun schema => !walk.contains schema.name).length

theorem unvisited_lt {index : SchemaIndex} {walk : List String} {schema : Schema}
    (hmem : schema ∈ index.schemas) (hnew : schema.name ∉ walk) :
    index.unvisited (walk ++ [schema.name]) < index.unvisited walk := by
  have hsplit : (index.schemas.filter fun s => !(walk ++ [schema.name]).contains s.name) =
      (index.schemas.filter fun s => !walk.contains s.name).filter
        fun s => !decide (s.name = schema.name) := by
    rw [List.filter_filter]
    refine List.filter_congr fun s _ => ?_
    simp [Bool.and_comm]
  unfold unvisited
  rw [hsplit, List.length_filter_lt_length_iff_exists]
  exact ⟨schema, List.mem_filter.2 ⟨hmem, by simpa using hnew⟩, by simp⟩

end SchemaIndex

end SchemaLang
