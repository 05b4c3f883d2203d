import Mathlib.Data.List.Chain
import SchemaLang.Proofs.Resolve.Default
import SchemaLang.Proofs.Resolve.Order

/-!
# What errors of resolution tell

The names of a walk are those of different schemas, and each schema has a field that leads to the
next one (`IsWalk`). So a walk that comes back to one of its schemas has gone around a cycle, which
starts where that schema was met first and need not hold the schema the walk started from
(`IsWalk.isCycle`). The errors of an order and of a default show such a cycle, or a field of the
index with a type that nothing defines (`errors_explained`).
-/

namespace SchemaLang

/-- A field whose default is that of its type: no array, and without a default of its own. -/
def Field.Defers (field : Field) : Prop := field.isArray = false ∧ field.default = none

namespace SchemaIndex

variable {index : SchemaIndex} {counts : Field → Prop} {walk : List String}

/-! ## Walks and cycles -/

/-- The schema of a name has a field that counts and is resolved to the schema of another name. -/
def Leads (index : SchemaIndex) (counts : Field → Prop) (name other : String) : Prop :=
  ∃ schema ∈ index.schemas, schema.name = name ∧ ∃ field ∈ schema.fields, counts field ∧
    ∃ target, index.resolve field = .ok (.schema target) ∧ target.name = other

/-- Names of different schemas of the index, each one leading to the next. -/
structure IsWalk (index : SchemaIndex) (counts : Field → Prop) (walk : List String) : Prop where
  distinct : walk.Nodup
  indexed : ∀ name ∈ walk, ∃ schema ∈ index.schemas, schema.name = name
  edges : walk.IsChain (index.Leads counts)

/-- A walk through at least one schema, and back to the one it started from. -/
structure IsCycle (index : SchemaIndex) (counts : Field → Prop) (path : List String) : Prop where
  two_le : 2 ≤ path.length
  closed : path.head? = path.getLast?
  distinct : path.dropLast.Nodup
  indexed : ∀ name ∈ path.dropLast, ∃ schema ∈ index.schemas, schema.name = name
  edges : path.IsChain (index.Leads counts)

theorem isWalk_nil : IsWalk index counts [] := ⟨List.nodup_nil, nofun, List.isChain_nil⟩

/-- A walk goes on to a schema that it has not met. -/
theorem IsWalk.concat (h : IsWalk index counts walk) {schema : Schema}
    (hlast : ∀ last ∈ walk.getLast?, index.Leads counts last schema.name)
    (hmem : schema ∈ index.schemas) (hnew : schema.name ∉ walk) :
    IsWalk index counts (walk ++ [schema.name]) where
  distinct := by
    rw [← List.concat_eq_append]
    exact h.distinct.concat hnew
  indexed := by
    refine List.forall_mem_append.2 ⟨h.indexed, fun name hname ↦ ?_⟩
    exact ⟨schema, hmem, (List.mem_singleton.1 hname).symm⟩
  edges := by
    refine h.edges.append (List.isChain_singleton _) fun last hmemLast name hname ↦ ?_
    obtain rfl := Option.mem_some_iff.1 hname
    exact hlast last hmemLast

/-- A walk that leads to a schema it has met has gone around a cycle from there on. -/
theorem IsWalk.isCycle (h : IsWalk index counts walk) {name : String}
    (hlast : ∀ last ∈ walk.getLast?, index.Leads counts last name) (hmet : name ∈ walk) :
    IsCycle index counts (walk.dropWhile (· ≠ name) ++ [name]) := by
  obtain ⟨before, behind, rfl, hbefore⟩ := List.eq_append_cons_of_mem hmet
  have hdrop : (before ++ name :: behind).dropWhile (· ≠ name) = name :: behind := by
    rw [List.dropWhile_append_of_pos]
    · simp
    · intro other hother
      exact decide_eq_true fun heq ↦ hbefore (heq ▸ hother)
  have hround : IsWalk index counts (name :: behind) :=
    ⟨(List.nodup_append.1 h.distinct).2.1, fun other hother ↦
      h.indexed other (List.mem_append_right before hother), h.edges.right_of_append⟩
  rw [hdrop]
  refine ⟨by simp, ?_, ?_, ?_, ?_⟩
  · rw [List.getLast?_concat, List.cons_append, List.head?_cons]
  · rw [List.dropLast_concat]
    exact hround.distinct
  · rw [List.dropLast_concat]
    exact hround.indexed
  · refine hround.edges.append (List.isChain_singleton _) fun last hmemLast other hother ↦ ?_
    obtain rfl := Option.mem_some_iff.1 hother
    exact hlast last (List.getLast?_append_cons before name behind ▸ hmemLast)

/-! ## Errors -/

/-- What an error tells about an index and the fields that count. -/
inductive Explains (index : SchemaIndex) (counts : Field → Prop) : ResolveError → Prop
  /-- Schemas of the index lead around in a cycle. -/
  | cycle {path : List String} (h : IsCycle index counts path) :
      Explains index counts (.cyclicReference path)
  /-- A field of a schema of the index has a type that is neither primitive nor a schema. -/
  | unresolved {schema : Schema} {field : Field} (hschema : schema ∈ index.schemas)
      (hfield : field ∈ schema.fields) (hcounts : counts field)
      (hprimitive : Primitive.ofName? field.type = none)
      (hundefined : ∀ other ∈ index.schemas, other.name ≠ field.type) :
      Explains index counts (.unresolvedType field.type field.name)

theorem explains_unresolved {schema : Schema} {field : Field} (hschema : schema ∈ index.schemas)
    (hfield : field ∈ schema.fields) (hcounts : counts field) (hprimitive : field.primitive? = none)
    (hget : index.get? field.type = none) :
    Explains index counts (.unresolvedType field.type field.name) := by
  refine .unresolved hschema hfield hcounts hprimitive fun other hother hname ↦ ?_
  rw [get?_eq_some_iff.2 ⟨hother, hname⟩] at hget
  cases hget

/-- A field of the last schema of a walk leads on to the schema it is resolved to. -/
theorem leads_of_get? {schema target : Schema} {field : Field} (hschema : schema ∈ index.schemas)
    (hfield : field ∈ schema.fields) (hcounts : counts field) (hprimitive : field.primitive? = none)
    (hget : index.get? field.type = some target) :
    index.Leads counts schema.name target.name := by
  refine ⟨schema, hschema, rfl, field, hfield, hcounts, target, ?_, rfl⟩
  rw [resolve, hprimitive, hget]

mutual

/-- The error of a walk through an index tells of a cycle or of a type that nothing defines. -/
theorem place_explained (walk : List String) (placed : List Schema) (schema : Schema)
    (hmem : schema ∈ index.schemas) (hwalk : IsWalk index (fun _ ↦ True) walk)
    (hlast : ∀ last ∈ walk.getLast?, index.Leads (fun _ ↦ True) last schema.name)
    {error : ResolveError} (h : index.place walk placed schema hmem = .error error) :
    Explains index (fun _ ↦ True) error := by
  rw [place] at h
  split at h
  case isTrue => cases h
  case isFalse =>
  split at h
  case isTrue hmet =>
    cases h
    exact .cycle (hwalk.isCycle hlast hmet)
  case isFalse hnew =>
    have := unvisited_lt hmem hnew
    exact placeFields_explained (walk ++ [schema.name]) placed schema.fields hmem
      (List.Subset.refl _) (hwalk.concat hlast hmem hnew) List.getLast?_concat (map_eq_error.1 h)
termination_by (index.unvisited walk, 0)

theorem placeFields_explained (walk : List String) (placed : List Schema) (fields : List Field)
    {schema : Schema} (hschema : schema ∈ index.schemas) (hfields : fields ⊆ schema.fields)
    (hwalk : IsWalk index (fun _ ↦ True) walk) (hlast : walk.getLast? = some schema.name)
    {error : ResolveError} (h : index.placeFields walk placed fields = .error error) :
    Explains index (fun _ ↦ True) error := by
  cases fields with
  | nil =>
    rw [placeFields] at h
    cases h
  | cons field fields =>
    obtain ⟨hfield, hrest⟩ := List.cons_subset.1 hfields
    by_cases hprimitive : field.primitive?.isSome = true
    · rw [placeFields_of_primitive hprimitive] at h
      exact placeFields_explained walk placed fields hschema hrest hwalk hlast h
    · have hnone := Option.not_isSome_iff_eq_none.1 hprimitive
      cases hget : index.get? field.type with
      | none =>
        rw [placeFields_of_unresolved hprimitive hget] at h
        cases h
        exact explains_unresolved hschema hfield trivial hnone hget
      | some target =>
        rw [placeFields_of_get? hprimitive hget] at h
        rcases bind_eq_error.1 h with hfirst | ⟨middle, -, hbehind⟩
        · refine place_explained walk placed target (mem_of_get? hget) hwalk ?_ hfirst
          rw [hlast]
          rintro last ⟨⟩
          exact leads_of_get? hschema hfield trivial hnone hget
        · exact placeFields_explained walk middle fields hschema hrest hwalk hlast hbehind
termination_by (index.unvisited walk, fields.length + 1)

end

theorem foldlM_place_explained (schemas : List { schema // schema ∈ index.schemas })
    (placed : List Schema) {error : ResolveError}
    (h : schemas.foldlM (fun placed schema ↦ index.place [] placed schema.1 schema.2) placed =
      .error error) : Explains index (fun _ ↦ True) error := by
  induction schemas generalizing placed with
  | nil => cases h
  | cons schema schemas ih =>
    rw [List.foldlM_cons] at h
    rcases bind_eq_error.1 h with hfirst | ⟨middle, -, hrest⟩
    · exact place_explained [] placed schema.1 schema.2 isWalk_nil nofun hfirst
    · exact ih middle hrest

mutual

/-- The error of a default tells of a cycle or of a type that nothing defines. -/
theorem defaultOn_explained (walk : List String) (field : Field) {schema : Schema}
    (hschema : schema ∈ index.schemas) (hfield : field ∈ schema.fields)
    (hwalk : IsWalk index Field.Defers walk) (hlast : walk.getLast? = some schema.name)
    {error : ResolveError} (h : index.defaultOn walk field = .error error) :
    Explains index Field.Defers error := by
  cases hown : field.ownDefault? with
  | some value =>
    rw [defaultOn_of_ownDefault? hown] at h
    cases h
  | none =>
    obtain ⟨hdefault, hsingle, hprimitive⟩ := Field.ownDefault?_eq_none_iff.1 hown
    have hdefers : field.Defers := ⟨hsingle, hdefault⟩
    cases hget : index.get? field.type with
    | none =>
      rw [defaultOn_of_unresolved hown hget] at h
      cases h
      exact explains_unresolved hschema hfield hdefers hprimitive hget
    | some target =>
      have hleads : ∀ last ∈ walk.getLast?, index.Leads Field.Defers last target.name := by
        rw [hlast]
        rintro last ⟨⟩
        exact leads_of_get? hschema hfield hdefers hprimitive hget
      rw [defaultOn_of_get? hown hget] at h
      split at h
      case isTrue hmet =>
        cases h
        exact .cycle (hwalk.isCycle hleads hmet)
      case isFalse hnew =>
        have := unvisited_lt (mem_of_get? hget) hnew
        exact defaultsOn_explained (walk ++ [target.name]) target.fields (mem_of_get? hget)
          (List.Subset.refl _) (hwalk.concat hleads (mem_of_get? hget) hnew) List.getLast?_concat
          (map_eq_error.1 h)
termination_by (index.unvisited walk, 0)

theorem defaultsOn_explained (walk : List String) (fields : List Field) {schema : Schema}
    (hschema : schema ∈ index.schemas) (hfields : fields ⊆ schema.fields)
    (hwalk : IsWalk index Field.Defers walk) (hlast : walk.getLast? = some schema.name)
    {error : ResolveError} (h : index.defaultsOn walk fields = .error error) :
    Explains index Field.Defers error := by
  cases fields with
  | nil =>
    rw [defaultsOn] at h
    cases h
  | cons field fields =>
    obtain ⟨hfield, hrest⟩ := List.cons_subset.1 hfields
    rw [defaultsOn] at h
    rcases bind_eq_error.1 h with hfirst | ⟨value, -, hbehind⟩
    · exact defaultOn_explained walk field hschema hfield hwalk hlast hfirst
    · rcases bind_eq_error.1 hbehind with hvalues | ⟨values, -, hnever⟩
      · exact defaultsOn_explained walk fields hschema hrest hwalk hlast hvalues
      · cases hnever
termination_by (index.unvisited walk, fields.length + 1)

end

/--
The errors of an order and of the default of a schema tell what is wrong: they show a cycle of
schemas, each with a field that is resolved to the next one, or a field of a schema with a type that
is neither primitive nor a schema. Only fields that are no arrays and have no default of their own
count for a default.
-/
theorem errors_explained (schemas : List Schema) :
    let index := ofSchemas schemas
    (∀ error, index.dependencyOrder = .error error → Explains index (fun _ ↦ True) error) ∧
    ∀ schema ∈ index.schemas, ∀ error, index.schemaDefault schema = .error error →
      Explains index Field.Defers error := by
  intro index
  refine ⟨fun error h ↦ foldlM_place_explained _ _ h, fun schema hmem error h ↦ ?_⟩
  have hwalk : IsWalk index Field.Defers ([] ++ [schema.name]) :=
    isWalk_nil.concat nofun hmem List.not_mem_nil
  exact defaultsOn_explained [schema.name] schema.fields hmem (List.Subset.refl _) hwalk rfl
    (map_eq_error.1 h)

/--
A schema above two that refer to each other, one of which also holds an array of the first. The
order meets the cycle of all three; for the default of the first the array does not count, and it
meets the cycle of the other two.
-/
theorem errors_explained_above_cycle :
    let top : Schema := ⟨"X", [{ name := "a", type := "A" }]⟩
    let first : Schema := ⟨"A", [{ name := "b", type := "B" }]⟩
    let second : Schema :=
      ⟨"B", [{ name := "xs", type := "X", isArray := true }, { name := "a", type := "A" }]⟩
    let index := ofSchemas [top, first, second]
    index.dependencyOrder = .error (.cyclicReference ["X", "A", "B", "X"]) ∧
    Explains index (fun _ ↦ True) (.cyclicReference ["X", "A", "B", "X"]) ∧
    top ∈ index.schemas ∧
    index.schemaDefault top = .error (.cyclicReference ["A", "B", "A"]) ∧
    Explains index Field.Defers (.cyclicReference ["A", "B", "A"]) := by
  intro top first second index
  have horder : index.dependencyOrder = .error (.cyclicReference ["X", "A", "B", "X"]) := by cbv
  have hmem : top ∈ index.schemas := by decide
  have hdefault : index.schemaDefault top = .error (.cyclicReference ["A", "B", "A"]) := by cbv
  obtain ⟨horderExplained, hdefaultExplained⟩ := errors_explained [top, first, second]
  exact ⟨horder, horderExplained _ horder, hmem, hdefault, hdefaultExplained top hmem _ hdefault⟩

end SchemaIndex

end SchemaLang
