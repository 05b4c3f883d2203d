import Mathlib.Data.List.Perm.Subperm
import SchemaLang.Proofs.Resolve.Cycle

/-!
# Schemas nested in defaults

The default of a schema holds those of the schemas that its deferring fields are resolved to, and
so on. It exists exactly if all deferring fields met on the way are resolved and none of these
schemas is nested in itself (`Unfolds`). A walk that completes one schema completes all that are
nested in it, and meets none of them twice (`Completes.exists_of_reflTransGen`,
`Completes.notMem`); and as long as the schemas met so far lead on to a schema that unfolds, the
walk never comes back to them (`completes_of_unfolds`). Along every branch of a default the names
are those of such a walk, so that no name repeats. An order of dependencies rules out more than
a default needs to: if there is one, every default exists (`schemaDefault_isOk_iff`).
-/

namespace SchemaLang

open Relation

/-- The names of schemas that are nested in a default value, from the outermost one inwards. -/
inductive DefaultValue.Branch : DefaultValue → List String → Prop
  | nil (value : DefaultValue) : Branch value []
  | single (name : String) (fields : List (String × DefaultValue)) :
      Branch (.schema name fields) [name]
  | nested {name field : String} {fields : List (String × DefaultValue)} {value : DefaultValue}
      {branch : List String} (hmem : (field, value) ∈ fields) (hbranch : Branch value branch) :
      Branch (.schema name fields) (name :: branch)

namespace SchemaIndex

variable {index : SchemaIndex} {walk : List String} {schema other : Schema}

/-- A schema of the index has a field whose default is that of another schema. -/
def Nests (index : SchemaIndex) (schema other : Schema) : Prop :=
  schema ∈ index.schemas ∧
    ∃ field ∈ schema.fields, field.Defers ∧ index.resolve field = .ok (.schema other)

/-- From a schema on, deferring fields are resolved and do not lead back to where they were. -/
structure Unfolds (index : SchemaIndex) (schema : Schema) : Prop where
  resolved : ∀ other, ReflTransGen index.Nests schema other →
    ∀ field ∈ other.fields, field.Defers → ∃ type, index.resolve field = .ok type
  acyclic : ∀ other, ReflTransGen index.Nests schema other → ¬TransGen index.Nests other other

/-! ## Fields of a schema -/

/-- Fields have defaults if each of them has one, and the values stand under their names. -/
theorem defaultsOn_eq_ok_iff {fields : List Field} {values : List (String × DefaultValue)} :
    index.defaultsOn walk fields = .ok values ↔
      List.Forall₂ (fun field entry ↦
        entry.1 = field.name ∧ index.defaultOn walk field = .ok entry.2) fields values := by
  induction fields generalizing values with
  | nil =>
    rw [defaultsOn, Except.ok.injEq, List.forall₂_nil_left_iff]
    exact eq_comm
  | cons field fields ih =>
    rw [defaultsOn, List.forall₂_cons_left_iff]
    simp only [bind_eq_ok, ih, pure_eq_ok]
    constructor
    · rintro ⟨value, hvalue, rest, hrest, rfl⟩
      exact ⟨(field.name, value), rest, ⟨rfl, hvalue⟩, hrest, rfl⟩
    · rintro ⟨⟨name, value⟩, rest, ⟨rfl, hvalue⟩, hrest, rfl⟩
      exact ⟨value, hvalue, rest, hrest, rfl⟩

/-- On a walk, all fields of a schema have a default. -/
def Completes (index : SchemaIndex) (walk : List String) (schema : Schema) : Prop :=
  ∃ values, index.defaultsOn walk schema.fields = .ok values

theorem completes_iff : index.Completes walk schema ↔
    ∀ field ∈ schema.fields, ∃ value, index.defaultOn walk field = .ok value := by
  constructor
  · intro ⟨values, hvalues⟩ field hfield
    obtain ⟨entry, -, -, hvalue⟩ := exists_value_of_mem (defaultsOn_eq_ok_iff.1 hvalues) hfield
    exact ⟨entry.2, hvalue⟩
  · intro h
    have : Nonempty DefaultValue := ⟨.zero⟩
    choose! value hvalue using h
    refine ⟨schema.fields.map fun field ↦ (field.name, value field), defaultsOn_eq_ok_iff.2 ?_⟩
    rw [List.forall₂_map_right_iff, List.forall₂_same]
    exact fun field hfield ↦ ⟨rfl, hvalue field hfield⟩

theorem schemaDefault_isOk_iff_completes :
    (∃ value, index.schemaDefault schema = .ok value) ↔
      index.Completes [schema.name] schema := by
  unfold schemaDefault
  simp only [map_eq_ok]
  constructor
  · rintro ⟨_, values, hvalues, -⟩
    exact ⟨values, hvalues⟩
  · rintro ⟨values, hvalues⟩
    exact ⟨_, values, hvalues, rfl⟩

/-- A deferring field that is resolved to a schema has no default of its own. -/
theorem ownDefault?_of_defers {field : Field} (hdefers : field.Defers)
    (hprimitive : field.primitive? = none) : field.ownDefault? = none :=
  Field.ownDefault?_eq_none_iff.2 ⟨hdefers.2, hdefers.1, hprimitive⟩

/-! ## What a completed schema shows -/

/-- A walk that completes a schema goes on to every schema nested in it. -/
theorem Completes.step (h : index.Completes walk schema) (hnests : index.Nests schema other) :
    other.name ∉ walk ∧ index.Completes (walk ++ [other.name]) other := by
  obtain ⟨-, field, hfield, hdefers, hresolve⟩ := hnests
  obtain ⟨hprimitive, hget⟩ := resolve_eq_schema_iff.1 hresolve
  obtain ⟨value, hvalue⟩ := completes_iff.1 h field hfield
  rw [defaultOn_of_get? (ownDefault?_of_defers hdefers hprimitive) hget] at hvalue
  split at hvalue
  case isTrue => cases hvalue
  case isFalse hnew =>
    obtain ⟨values, hvalues, -⟩ := map_eq_ok.1 hvalue
    exact ⟨hnew, values, hvalues⟩

/-- No schema nested in a completed one has been met before. -/
theorem Completes.notMem (h : index.Completes walk schema)
    (hnested : TransGen index.Nests schema other) : other.name ∉ walk := by
  induction hnested using TransGen.head_induction_on generalizing walk with
  | single hlast => exact (h.step hlast).1
  | head hfirst _ ih =>
    intro hmem
    exact ih (h.step hfirst).2 (List.mem_append_left _ hmem)

/-- Every schema nested in a completed one is completed, on a walk that has met it. -/
theorem Completes.exists_of_reflTransGen (h : index.Completes walk schema)
    (hmet : schema.name ∈ walk) (hnested : ReflTransGen index.Nests schema other) :
    ∃ longer, other.name ∈ longer ∧ index.Completes longer other := by
  induction hnested with
  | refl => exact ⟨walk, hmet, h⟩
  | @tail _ last _ hlast ih =>
    obtain ⟨longer, -, hlonger⟩ := ih
    refine ⟨longer ++ [last.name], ?_, (hlonger.step hlast).2⟩
    exact List.mem_append_right longer (List.mem_singleton_self _)

theorem Completes.resolved (h : index.Completes walk schema) {field : Field}
    (hfield : field ∈ schema.fields) (hdefers : field.Defers) :
    ∃ type, index.resolve field = .ok type := by
  cases hprimitive : field.primitive? with
  | some type => exact ⟨.primitive type, by rw [resolve, hprimitive]⟩
  | none =>
    obtain ⟨value, hvalue⟩ := completes_iff.1 h field hfield
    cases hget : index.get? field.type with
    | some target => exact ⟨.schema target, resolve_eq_schema_iff.2 ⟨hprimitive, hget⟩⟩
    | none =>
      rw [defaultOn_of_unresolved (ownDefault?_of_defers hdefers hprimitive) hget] at hvalue
      cases hvalue

theorem Completes.unfolds (h : index.Completes walk schema) (hmet : schema.name ∈ walk) :
    index.Unfolds schema where
  resolved other hnested field hfield hdefers := by
    obtain ⟨longer, -, hlonger⟩ := h.exists_of_reflTransGen hmet hnested
    exact hlonger.resolved hfield hdefers
  acyclic other hnested hcycle := by
    obtain ⟨longer, hmem, hlonger⟩ := h.exists_of_reflTransGen hmet hnested
    exact hlonger.notMem hcycle hmem

/-! ## When a schema is completed -/

theorem Unfolds.of_nests (h : index.Unfolds schema) (hnests : index.Nests schema other) :
    index.Unfolds other where
  resolved last hnested := h.resolved last (.head hnests hnested)
  acyclic last hnested := h.acyclic last (.head hnests hnested)

/-- A schema that unfolds is completed if all schemas met before lead to it. -/
theorem completes_of_unfolds (walk : List String) (schema : Schema)
    (hmem : schema ∈ index.schemas) (hunfolds : index.Unfolds schema)
    (hmet : ∀ met ∈ index.schemas, met.name ∈ walk → ReflTransGen index.Nests met schema) :
    index.Completes walk schema := by
  refine completes_iff.2 fun field hfield ↦ ?_
  cases hown : field.ownDefault? with
  | some value => exact ⟨value, defaultOn_of_ownDefault? hown⟩
  | none =>
    obtain ⟨hdefault, hsingle, hprimitive⟩ := Field.ownDefault?_eq_none_iff.1 hown
    have hdefers : field.Defers := ⟨hsingle, hdefault⟩
    have hresolved := hunfolds.resolved schema .refl field hfield hdefers
    cases hget : index.get? field.type with
    | none =>
      rw [resolve, hprimitive, hget] at hresolved
      simp at hresolved
    | some target =>
      have hresolve := resolve_eq_schema_iff.2 ⟨hprimitive, hget⟩
      have hnests : index.Nests schema target := ⟨hmem, field, hfield, hdefers, hresolve⟩
      have hnew : target.name ∉ walk := by
        intro hwalk
        have hback := hmet target (mem_of_get? hget) hwalk
        exact hunfolds.acyclic target (.single hnests) (.tail' hback hnests)
      have := unvisited_lt (mem_of_get? hget) hnew
      obtain ⟨values, hvalues⟩ := completes_of_unfolds (walk ++ [target.name]) target
        (mem_of_get? hget) (hunfolds.of_nests hnests) fun met hmetMem hmetWalk ↦ by
          rcases List.mem_append.1 hmetWalk with hbefore | hlast
          · exact (hmet met hmetMem hbefore).tail hnests
          · rw [eq_of_name_eq hmetMem (mem_of_get? hget) (List.mem_singleton.1 hlast)]
      exact ⟨_, by rw [defaultOn_of_get? hown hget, if_neg hnew, hvalues, map_ok]⟩
termination_by index.unvisited walk

theorem schemaDefault_isOk_iff_unfolds (hmem : schema ∈ index.schemas) :
    (∃ value, index.schemaDefault schema = .ok value) ↔ index.Unfolds schema := by
  rw [schemaDefault_isOk_iff_completes]
  constructor
  · exact fun h ↦ h.unfolds (List.mem_singleton_self _)
  · intro h
    refine completes_of_unfolds _ schema hmem h fun met hmet hname ↦ ?_
    rw [eq_of_name_eq hmet hmem (List.mem_singleton.1 hname)]

/-! ## Branches -/

/-- The default of a field is that of a schema only if the walk goes on to this schema. -/
theorem exists_of_defaultOn_eq_schema {field : Field} {name : String}
    {fields : List (String × DefaultValue)} (hschema : schema ∈ index.schemas)
    (hfield : field ∈ schema.fields) (hwalk : IsWalk index Field.Defers walk)
    (hlast : walk.getLast? = some schema.name)
    (h : index.defaultOn walk field = .ok (.schema name fields)) :
    ∃ target ∈ index.schemas, target.name = name ∧ IsWalk index Field.Defers (walk ++ [name]) ∧
      index.defaultsOn (walk ++ [name]) target.fields = .ok fields := by
  cases hown : field.ownDefault? with
  | some value =>
    rw [defaultOn_of_ownDefault? hown, Except.ok.injEq] at h
    exact absurd (h ▸ hown) Field.ownDefault?_ne_schema
  | none =>
    obtain ⟨hdefault, hsingle, hprimitive⟩ := Field.ownDefault?_eq_none_iff.1 hown
    cases hget : index.get? field.type with
    | none =>
      rw [defaultOn_of_unresolved hown hget] at h
      cases h
    | some target =>
      rw [defaultOn_of_get? hown hget] at h
      split at h
      case isTrue => cases h
      case isFalse hnew =>
        obtain ⟨values, hvalues, heq⟩ := map_eq_ok.1 h
        cases heq
        refine ⟨target, mem_of_get? hget, rfl, hwalk.concat ?_ (mem_of_get? hget) hnew, hvalues⟩
        rw [hlast]
        rintro last ⟨⟩
        exact leads_of_get? hschema hfield ⟨hsingle, hdefault⟩ hprimitive hget

/-- A branch of the default of a field goes on from the walk on which the default is found. -/
theorem isWalk_append_of_branch {value : DefaultValue} {branch : List String}
    (hbranch : value.Branch branch) {field : Field} (hschema : schema ∈ index.schemas)
    (hfield : field ∈ schema.fields) (hwalk : IsWalk index Field.Defers walk)
    (hlast : walk.getLast? = some schema.name) (h : index.defaultOn walk field = .ok value) :
    IsWalk index Field.Defers (walk ++ branch) := by
  induction hbranch generalizing walk schema field with
  | nil value =>
    rw [List.append_nil]
    exact hwalk
  | single name fields =>
    obtain ⟨-, -, -, hlonger, -⟩ := exists_of_defaultOn_eq_schema hschema hfield hwalk hlast h
    exact hlonger
  | nested hmem _ ih =>
    obtain ⟨target, htarget, rfl, hlonger, hfields⟩ :=
      exists_of_defaultOn_eq_schema hschema hfield hwalk hlast h
    obtain ⟨inner, hinner, -, hvalue⟩ := exists_item_of_mem (defaultsOn_eq_ok_iff.1 hfields) hmem
    rw [List.append_cons]
    exact ih htarget hinner hlonger List.getLast?_concat hvalue

/-- Every branch of the default of a schema is a walk through deferring fields. -/
theorem isWalk_of_branch {value : DefaultValue} {branch : List String}
    (hmem : schema ∈ index.schemas) (h : index.schemaDefault schema = .ok value)
    (hbranch : value.Branch branch) : IsWalk index Field.Defers branch := by
  obtain ⟨values, hvalues, rfl⟩ := map_eq_ok.1 h
  have hwalk : IsWalk index Field.Defers ([] ++ [schema.name]) :=
    isWalk_nil.concat nofun hmem List.not_mem_nil
  cases hbranch with
  | nil => exact isWalk_nil
  | single => exact hwalk
  | nested hentry hinner =>
    obtain ⟨field, hfield, -, hvalue⟩ :=
      exists_item_of_mem (defaultsOn_eq_ok_iff.1 hvalues) hentry
    exact isWalk_append_of_branch hinner hmem hfield hwalk rfl hvalue

/-- A walk meets no more schemas than there are. -/
theorem IsWalk.length_le {counts : Field → Prop} (h : IsWalk index counts walk) :
    walk.length ≤ index.schemas.length := by
  have hsubset : walk ⊆ index.schemas.map Schema.name := by
    intro name hname
    obtain ⟨schema, hschema, rfl⟩ := h.indexed name hname
    exact List.mem_map_of_mem hschema
  have hle := (List.subperm_of_subset h.distinct hsubset).length_le
  rwa [List.length_map] at hle

/-! ## Defaults and the order of dependencies -/

theorem refersTo_of_nests (h : index.Nests schema other) : index.RefersTo schema other := by
  obtain ⟨hmem, field, hfield, -, hresolve⟩ := h
  exact ⟨hmem, field, hfield, hresolve⟩

/-- Where all fields are resolved and no schema refers back to itself, every schema unfolds. -/
theorem unfolds_of_acyclic (hresolved : index.AllResolved) (hacyclic : index.Acyclic)
    (hmem : schema ∈ index.schemas) : index.Unfolds schema where
  resolved other hnested field hfield _ := by
    have hother : other ∈ index.schemas := by
      rcases hnested.cases_tail with rfl | ⟨_, -, -, _, -, -, hresolve⟩
      · exact hmem
      · exact mem_of_get? (resolve_eq_schema_iff.1 hresolve).2
    exact hresolved other hother field hfield
  acyclic other _ hcycle := hacyclic other (TransGen.mono (fun _ _ ↦ refersTo_of_nests) _ _ hcycle)

/-- The default of a field that defers is that of its schema. -/
theorem defaultOf_of_get? {field : Field} (hown : field.ownDefault? = none)
    (hget : index.get? field.type = some schema) :
    index.defaultOf field = index.schemaDefault schema := by
  rw [defaultOf, defaultOn_of_get? hown hget, if_neg List.not_mem_nil]
  rfl

/-- Where all fields are resolved and no schema refers back to itself, they have defaults. -/
theorem exists_defaultOf_of_acyclic (hresolved : index.AllResolved) (hacyclic : index.Acyclic)
    {field : Field} (hfield : ∃ type, index.resolve field = .ok type) :
    ∃ value, index.defaultOf field = .ok value := by
  cases hown : field.ownDefault? with
  | some value => exact ⟨value, defaultOf_of_ownDefault? hown⟩
  | none =>
    have hprimitive := (Field.ownDefault?_eq_none_iff.1 hown).2.2
    cases hget : index.get? field.type with
    | none =>
      rw [resolve, hprimitive, hget] at hfield
      simp at hfield
    | some target =>
      rw [defaultOf_of_get? hown hget, schemaDefault_isOk_iff_unfolds (mem_of_get? hget)]
      exact unfolds_of_acyclic hresolved hacyclic (mem_of_get? hget)

/--
The default of a schema exists exactly if, from this schema on, all deferring fields are resolved
and none of the schemas they lead to is nested in itself. Its branches then go along different
schemas of the index, each of them leading to the next one, so that they are no longer than the
index. If there is an order of dependencies, all schemas and all of their fields have defaults.
-/
theorem schemaDefault_isOk_iff (index : SchemaIndex) :
    (∀ schema ∈ index.schemas,
      ((∃ value, index.schemaDefault schema = .ok value) ↔ index.Unfolds schema) ∧
      ∀ value, index.schemaDefault schema = .ok value → ∀ branch, value.Branch branch →
        branch.Nodup ∧ branch.length ≤ index.schemas.length ∧
          IsWalk index Field.Defers branch) ∧
    ∀ order, index.dependencyOrder = .ok order → ∀ schema ∈ index.schemas,
      (∃ value, index.schemaDefault schema = .ok value) ∧
      ∀ field ∈ schema.fields, ∃ value, index.defaultOf field = .ok value := by
  constructor
  · intro schema hmem
    refine ⟨schemaDefault_isOk_iff_unfolds hmem, fun value h branch hbranch ↦ ?_⟩
    have hwalk := isWalk_of_branch hmem h hbranch
    exact ⟨hwalk.distinct, hwalk.length_le, hwalk⟩
  · intro order h schema hmem
    obtain ⟨hresolved, hacyclic⟩ := dependencyOrder_isOk_iff.1 ⟨order, h⟩
    refine ⟨?_, fun field hfield ↦ ?_⟩
    · rw [schemaDefault_isOk_iff_unfolds hmem]
      exact unfolds_of_acyclic hresolved hacyclic hmem
    · exact exists_defaultOf_of_acyclic hresolved hacyclic (hresolved schema hmem field hfield)

/--
A schema that holds an array of itself has a default though there is no order; and one that holds
another schema twice has one because there is an order.
-/
theorem schemaDefault_isOk_iff_of_array :
    let leaf : Schema := ⟨"Leaf", [{ name := "n", type := "int8" }]⟩
    let tree : Schema := ⟨"Tree", [{ name := "leaf", type := "Leaf" },
      { name := "parts", type := "Tree", isArray := true }]⟩
    let index := ofSchemas [tree, leaf]
    index.dependencyOrder = .error (.cyclicReference ["Tree", "Tree"]) ∧
    tree ∈ index.schemas ∧
    index.schemaDefault tree =
      .ok (.schema "Tree" [("leaf", .schema "Leaf" [("n", .zero)]), ("parts", .emptyArray)]) ∧
    index.Unfolds tree ∧ IsWalk index Field.Defers ["Tree", "Leaf"] ∧
    let pair : Schema :=
      ⟨"Pair", [{ name := "a", type := "Leaf" }, { name := "b", type := "Leaf" }]⟩
    (ofSchemas [pair, leaf]).dependencyOrder = .ok [leaf, pair] ∧
    pair ∈ (ofSchemas [pair, leaf]).schemas ∧
    ∃ value, (ofSchemas [pair, leaf]).schemaDefault pair = .ok value := by
  intro leaf tree index
  have hmem : tree ∈ index.schemas := by decide
  have hdefault : index.schemaDefault tree =
      .ok (.schema "Tree" [("leaf", .schema "Leaf" [("n", .zero)]), ("parts", .emptyArray)]) := by
    cbv
  obtain ⟨hiff, hbranches⟩ := (schemaDefault_isOk_iff index).1 tree hmem
  have hbranch := hbranches _ hdefault ["Tree", "Leaf"]
    (.nested List.mem_cons_self (.single "Leaf" [("n", .zero)]))
  refine ⟨by cbv, hmem, hdefault, hiff.1 ⟨_, hdefault⟩, hbranch.2.2, ?_⟩
  intro pair
  have horder : (ofSchemas [pair, leaf]).dependencyOrder = .ok [leaf, pair] := by cbv
  have hpair : pair ∈ (ofSchemas [pair, leaf]).schemas := by decide
  exact ⟨horder, hpair, ((schemaDefault_isOk_iff (ofSchemas [pair, leaf])).2 _ horder pair hpair).1⟩

end SchemaIndex

end SchemaLang
