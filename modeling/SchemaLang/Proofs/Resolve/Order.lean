import SchemaLang.Proofs.Resolve.Reference
import SchemaLang.Proofs.Result
import SchemaLang.Resolve.Order

/-!
# The order of dependencies

A walk through an index places a schema behind all that it refers to. What it adds to a placement is
a placement again (`place_sound`), and it adds nothing that is met on the walk. If every field is
resolved and no schema refers back to itself, the walk never meets a schema twice and reaches its
end (`place_complete`). So an order is found exactly for these indexes
(`dependencyOrder_isOk_iff`).
-/

namespace SchemaLang.SchemaIndex

open Relation

variable {index : SchemaIndex} {walk : List String} {placed : List Schema}

/-- A placement that goes on from another one, with nothing new that a walk has met. -/
structure Extends (index : SchemaIndex) (walk : List String) (placed extended : List Schema) :
    Prop where
  placement : Placement index extended
  subset : placed ⊆ extended
  unmet : ∀ schema ∈ extended, schema ∈ placed ∨ schema.name ∉ walk

theorem Extends.refl (h : Placement index placed) : Extends index walk placed placed :=
  ⟨h, List.Subset.refl _, fun _ hmem ↦ .inl hmem⟩

theorem Extends.trans {middle extended : List Schema} (h : Extends index walk placed middle)
    (h' : Extends index walk middle extended) : Extends index walk placed extended where
  placement := h'.placement
  subset := List.Subset.trans h.subset h'.subset
  unmet schema hmem := by
    rcases h'.unmet schema hmem with hmiddle | hunmet
    · exact h.unmet schema hmiddle
    · exact .inr hunmet

theorem ResolvedWithin.mono {middle extended : List Schema} {field : Field}
    (h : index.ResolvedWithin middle field) (hsubset : middle ⊆ extended) :
    index.ResolvedWithin extended field := by
  obtain ⟨type, htype, hmem⟩ := h
  exact ⟨type, htype, fun schema hschema ↦ hsubset (hmem schema hschema)⟩

/-- A schema is placed exactly if one of its name is. -/
theorem any_name_eq {schema : Schema} (hplaced : placed ⊆ index.schemas)
    (hschema : schema ∈ index.schemas) :
    placed.any (·.name = schema.name) = true ↔ schema ∈ placed := by
  rw [List.any_eq_true]
  constructor
  · intro ⟨other, hother, hname⟩
    rwa [← eq_of_name_eq (hplaced hother) hschema (of_decide_eq_true hname)]
  · intro hmem
    exact ⟨schema, hmem, decide_eq_true rfl⟩

/-! ## Steps of a walk -/

section Steps

variable {field : Field} {fields : List Field}

theorem placeFields_of_primitive (h : field.primitive?.isSome = true) :
    index.placeFields walk placed (field :: fields) = index.placeFields walk placed fields := by
  rw [placeFields, if_pos h]

theorem placeFields_of_unresolved (h : ¬field.primitive?.isSome = true)
    (hget : index.get? field.type = none) :
    index.placeFields walk placed (field :: fields) =
      .error (.unresolvedType field.type field.name) := by
  rw [placeFields, if_neg h]
  split
  · rfl
  · next schema hsome =>
    rw [hget] at hsome
    cases hsome

theorem placeFields_of_get? {schema : Schema} (h : ¬field.primitive?.isSome = true)
    (hget : index.get? field.type = some schema) :
    index.placeFields walk placed (field :: fields) =
      index.place walk placed schema (mem_of_get? hget) >>= fun placed ↦
        index.placeFields walk placed fields := by
  rw [placeFields, if_neg h]
  split
  · next hnone =>
    rw [hget] at hnone
    cases hnone
  · next other hother =>
    rw [hget, Option.some.injEq] at hother
    subst hother
    rfl

end Steps

/-! ## What a walk places -/

mutual

/-- A walk leaves what is placed in front. -/
theorem prefix_of_place (walk : List String) (placed : List Schema) (schema : Schema)
    (hmem : schema ∈ index.schemas) {extended : List Schema}
    (h : index.place walk placed schema hmem = .ok extended) : placed <+: extended := by
  rw [place] at h
  split at h
  case isTrue =>
    cases h
    exact List.prefix_rfl
  case isFalse =>
  split at h
  case isTrue => cases h
  case isFalse hwalk =>
    have := unvisited_lt hmem hwalk
    obtain ⟨middle, hmiddle, rfl⟩ := map_eq_ok.1 h
    exact (prefix_of_placeFields (walk ++ [schema.name]) placed schema.fields hmiddle).trans
      (List.prefix_append _ _)
termination_by (index.unvisited walk, 0)

theorem prefix_of_placeFields (walk : List String) (placed : List Schema) (fields : List Field)
    {extended : List Schema} (h : index.placeFields walk placed fields = .ok extended) :
    placed <+: extended := by
  cases fields with
  | nil =>
    rw [placeFields] at h
    cases h
    exact List.prefix_rfl
  | cons field fields =>
    by_cases hprimitive : field.primitive?.isSome = true
    · rw [placeFields_of_primitive hprimitive] at h
      exact prefix_of_placeFields walk placed fields h
    · cases hget : index.get? field.type with
      | none =>
        rw [placeFields_of_unresolved hprimitive hget] at h
        cases h
      | some schema =>
        rw [placeFields_of_get? hprimitive hget] at h
        obtain ⟨middle, hmiddle, hrest⟩ := bind_eq_ok.1 h
        exact (prefix_of_place walk placed schema (mem_of_get? hget) hmiddle).trans
          (prefix_of_placeFields walk middle fields hrest)
termination_by (index.unvisited walk, fields.length + 1)

end

mutual

/-- A walk extends the placement up to the schema it starts from. -/
theorem place_sound (walk : List String) (placed : List Schema) (schema : Schema)
    (hmem : schema ∈ index.schemas) (hplaced : Placement index placed) {extended : List Schema}
    (h : index.place walk placed schema hmem = .ok extended) :
    Extends index walk placed extended ∧ schema ∈ extended := by
  rw [place] at h
  split at h
  case isTrue hany =>
    cases h
    exact ⟨.refl hplaced, (any_name_eq hplaced.subset hmem).1 hany⟩
  case isFalse hany =>
  split at h
  case isTrue => cases h
  case isFalse hwalk =>
    obtain ⟨middle, hmiddle, rfl⟩ := map_eq_ok.1 h
    have := unvisited_lt hmem hwalk
    obtain ⟨hextends, hresolved⟩ :=
      placeFields_sound (walk ++ [schema.name]) placed schema.fields hplaced hmiddle
    have hnew : schema ∉ middle := by
      intro hmiddle
      rcases hextends.unmet schema hmiddle with hold | hunmet
      · exact hany ((any_name_eq hplaced.subset hmem).2 hold)
      · exact hunmet (List.mem_append_right walk (List.mem_singleton_self _))
    refine ⟨⟨hextends.placement.concat hmem hnew hresolved, ?_, ?_⟩, ?_⟩
    · exact List.Subset.trans hextends.subset (List.subset_append_left _ _)
    · intro other hother
      rcases List.mem_append.1 hother with hmiddle | hlast
      · exact (hextends.unmet other hmiddle).imp_right fun hunmet hwalk ↦
          hunmet (List.mem_append_left _ hwalk)
      · rw [List.mem_singleton.1 hlast]
        exact .inr hwalk
    · exact List.mem_append_right middle (List.mem_singleton_self schema)
termination_by (index.unvisited walk, 0)

/-- A walk through fields extends the placement up to all that they refer to. -/
theorem placeFields_sound (walk : List String) (placed : List Schema) (fields : List Field)
    (hplaced : Placement index placed) {extended : List Schema}
    (h : index.placeFields walk placed fields = .ok extended) :
    Extends index walk placed extended ∧
      ∀ field ∈ fields, index.ResolvedWithin extended field := by
  cases fields with
  | nil =>
    rw [placeFields] at h
    cases h
    exact ⟨.refl hplaced, fun _ hmem ↦ absurd hmem List.not_mem_nil⟩
  | cons field fields =>
    by_cases hprimitive : field.primitive?.isSome = true
    · rw [placeFields_of_primitive hprimitive] at h
      obtain ⟨hextends, hresolved⟩ := placeFields_sound walk placed fields hplaced h
      obtain ⟨type, htype⟩ : ∃ type, index.resolve field = .ok (.primitive type) :=
        resolve_of_primitive hprimitive
      refine ⟨hextends, List.forall_mem_cons.2 ⟨⟨_, htype, ?_⟩, hresolved⟩⟩
      intro schema hschema
      cases hschema
    · cases hget : index.get? field.type with
      | none =>
        rw [placeFields_of_unresolved hprimitive hget] at h
        cases h
      | some schema =>
        rw [placeFields_of_get? hprimitive hget] at h
        obtain ⟨middle, hmiddle, hrest⟩ := bind_eq_ok.1 h
        obtain ⟨hfirst, hschema⟩ :=
          place_sound walk placed schema (mem_of_get? hget) hplaced hmiddle
        obtain ⟨hextends, hresolved⟩ := placeFields_sound walk middle fields hfirst.placement hrest
        have hfield : index.resolve field = .ok (.schema schema) := by
          rw [resolve_of_not_primitive hprimitive, hget]
        refine ⟨hfirst.trans hextends, List.forall_mem_cons.2 ⟨⟨_, hfield, ?_⟩, hresolved⟩⟩
        intro other hother
        cases hother
        exact hextends.subset hschema
termination_by (index.unvisited walk, fields.length + 1)

end

/-! ## When a walk reaches its end -/

/-- The schemas that a walk has met all refer to a schema. -/
def MetBefore (index : SchemaIndex) (walk : List String) (schema : Schema) : Prop :=
  ∀ met ∈ index.schemas, met.name ∈ walk → TransGen index.RefersTo met schema

mutual

/-- A walk among schemas that do not refer back reaches its end. -/
theorem place_complete (hresolved : index.AllResolved) (hacyclic : index.Acyclic)
    (walk : List String) (placed : List Schema) (schema : Schema) (hmem : schema ∈ index.schemas)
    (hmet : index.MetBefore walk schema) :
    ∃ extended, index.place walk placed schema hmem = .ok extended := by
  rw [place]
  split
  case isTrue => exact ⟨placed, rfl⟩
  case isFalse =>
  split
  case isTrue hwalk => exact absurd (hmet schema hmem hwalk) (hacyclic schema)
  case isFalse hwalk =>
    have := unvisited_lt hmem hwalk
    have hfields : ∀ field ∈ schema.fields, ∀ other, index.resolve field = .ok (.schema other) →
        index.MetBefore (walk ++ [schema.name]) other := by
      intro field hfield other hother met hmetMem hmetWalk
      have hrefers : index.RefersTo schema other := ⟨hmem, field, hfield, hother⟩
      rcases List.mem_append.1 hmetWalk with hbefore | hlast
      · exact (hmet met hmetMem hbefore).tail hrefers
      · rw [eq_of_name_eq hmetMem hmem (List.mem_singleton.1 hlast)]
        exact .single hrefers
    obtain ⟨middle, hmiddle⟩ := placeFields_complete hresolved hacyclic (walk ++ [schema.name])
      placed schema.fields (hresolved schema hmem) hfields
    exact ⟨middle ++ [schema], by rw [hmiddle, map_ok]⟩
termination_by (index.unvisited walk, 0)

theorem placeFields_complete (hresolved : index.AllResolved) (hacyclic : index.Acyclic)
    (walk : List String) (placed : List Schema) (fields : List Field)
    (hfields : ∀ field ∈ fields, ∃ type, index.resolve field = .ok type)
    (hmet : ∀ field ∈ fields, ∀ other, index.resolve field = .ok (.schema other) →
      index.MetBefore walk other) :
    ∃ extended, index.placeFields walk placed fields = .ok extended := by
  cases fields with
  | nil => exact ⟨placed, by rw [placeFields]⟩
  | cons field fields =>
    obtain ⟨hfield, hrest⟩ := List.forall_mem_cons.1 hfields
    obtain ⟨hmetField, hmetRest⟩ := List.forall_mem_cons.1 hmet
    by_cases hprimitive : field.primitive?.isSome = true
    · rw [placeFields_of_primitive hprimitive]
      exact placeFields_complete hresolved hacyclic walk placed fields hrest hmetRest
    · have hresolve := @resolve_of_not_primitive index field hprimitive
      cases hget : index.get? field.type with
      | none =>
        obtain ⟨type, htype⟩ := hfield
        rw [hget, htype] at hresolve
        cases hresolve
      | some schema =>
        rw [hget] at hresolve
        obtain ⟨middle, hmiddle⟩ := place_complete hresolved hacyclic walk placed schema
          (mem_of_get? hget) (hmetField schema hresolve)
        rw [placeFields_of_get? hprimitive hget, hmiddle, ok_bind]
        exact placeFields_complete hresolved hacyclic walk middle fields hrest hmetRest
termination_by (index.unvisited walk, fields.length + 1)

end

/-! ## The order of an index -/

theorem prefix_of_foldlM_place (schemas : List { schema // schema ∈ index.schemas })
    (placed : List Schema) {all : List Schema}
    (h : schemas.foldlM (fun placed schema ↦ index.place [] placed schema.1 schema.2) placed =
      .ok all) : placed <+: all := by
  induction schemas generalizing placed with
  | nil =>
    cases h
    exact List.prefix_rfl
  | cons schema schemas ih =>
    rw [List.foldlM_cons] at h
    obtain ⟨middle, hmiddle, hrest⟩ := bind_eq_ok.1 h
    exact (prefix_of_place [] placed schema.1 schema.2 hmiddle).trans (ih middle hrest)

/-- Walks from some schemas of the index, one after the other. -/
theorem foldlM_place_sound (schemas : List { schema // schema ∈ index.schemas })
    {order : List Schema} (hplaced : Placement index placed)
    (h : schemas.foldlM (fun placed schema ↦ index.place [] placed schema.1 schema.2) placed =
      .ok order) :
    Placement index order ∧ placed ⊆ order ∧ ∀ schema ∈ schemas, schema.1 ∈ order := by
  induction schemas generalizing placed with
  | nil =>
    cases h
    exact ⟨hplaced, List.Subset.refl _, fun _ hmem ↦ absurd hmem List.not_mem_nil⟩
  | cons schema schemas ih =>
    rw [List.foldlM_cons] at h
    obtain ⟨middle, hmiddle, hrest⟩ := bind_eq_ok.1 h
    obtain ⟨hextends, hschema⟩ := place_sound [] placed schema.1 schema.2 hplaced hmiddle
    obtain ⟨horder, hsubset, hall⟩ := ih hextends.placement hrest
    exact ⟨horder, List.Subset.trans hextends.subset hsubset,
      List.forall_mem_cons.2 ⟨hsubset hschema, hall⟩⟩

theorem foldlM_place_complete (hresolved : index.AllResolved) (hacyclic : index.Acyclic)
    (schemas : List { schema // schema ∈ index.schemas }) (placed : List Schema) :
    ∃ order, schemas.foldlM (fun placed schema ↦ index.place [] placed schema.1 schema.2) placed =
      .ok order := by
  induction schemas generalizing placed with
  | nil => exact ⟨placed, rfl⟩
  | cons schema schemas ih =>
    have hmet : index.MetBefore [] schema.1 := fun _ _ hmem ↦ absurd hmem List.not_mem_nil
    obtain ⟨middle, hmiddle⟩ :=
      place_complete hresolved hacyclic [] placed schema.1 schema.2 hmet
    rw [List.foldlM_cons, hmiddle, ok_bind]
    exact ih middle

/-- An order is a placement of all schemas of the index. -/
theorem dependencyOrder_sound {order : List Schema} (h : index.dependencyOrder = .ok order) :
    Placement index order ∧ index.schemas ⊆ order := by
  obtain ⟨horder, -, hall⟩ := foldlM_place_sound index.schemas.attach .nil h
  exact ⟨horder, fun schema hschema ↦ hall ⟨schema, hschema⟩ (List.mem_attach _ _)⟩

/-- An order holds the schemas of the index, each of them once. -/
theorem dependencyOrder_perm {order : List Schema} (h : index.dependencyOrder = .ok order) :
    order.Perm index.schemas := by
  obtain ⟨horder, hall⟩ := dependencyOrder_sound h
  apply (List.perm_ext_iff_of_nodup horder.nodup index.nodup_schemas).2
  exact fun schema ↦ ⟨fun hmem ↦ horder.subset hmem, fun hmem ↦ hall hmem⟩

/-- In a placement of the whole index all is resolved and nothing refers back to itself. -/
theorem Placement.allResolved_acyclic (h : Placement index placed)
    (hall : index.schemas ⊆ placed) : index.AllResolved ∧ index.Acyclic := by
  refine ⟨fun schema hschema field hfield ↦ ?_, fun schema hcycle ↦ ?_⟩
  · obtain ⟨before, behind, hsplit⟩ := List.append_of_mem (hall hschema)
    obtain ⟨type, htype, -⟩ := h.resolvedWithin hsplit hfield
    exact ⟨type, htype⟩
  · obtain ⟨_, hfirst, -⟩ := TransGen.head'_iff.1 hcycle
    exact h.acyclic (hall hfirst.1) hcycle

/-- An index has an order exactly if its fields are resolved and no schema refers back to itself. -/
theorem dependencyOrder_isOk_iff :
    (∃ order, index.dependencyOrder = .ok order) ↔ index.AllResolved ∧ index.Acyclic := by
  constructor
  · intro ⟨order, h⟩
    obtain ⟨horder, hall⟩ := dependencyOrder_sound h
    exact horder.allResolved_acyclic hall
  · intro ⟨hresolved, hacyclic⟩
    exact foldlM_place_complete hresolved hacyclic _ _

/--
Of any schemas, those that count have an order exactly if each of their fields is resolved and none
of them refers to itself, directly or through others. The order then holds each of them once and
nothing else, and behind all that its fields are resolved to.
-/
theorem dependencyOrder_ofSchemas (schemas : List Schema) :
    let index := ofSchemas schemas
    ((∃ order, index.dependencyOrder = .ok order) ↔
      (∀ schema ∈ index.schemas, ∀ field ∈ schema.fields, ∃ type, index.resolve field = .ok type) ∧
        ∀ schema, ¬TransGen index.RefersTo schema schema) ∧
    ∀ order, index.dependencyOrder = .ok order →
      order.Nodup ∧ (∀ schema, schema ∈ order ↔ schema ∈ index.schemas) ∧
      ∀ before schema behind, order = before ++ schema :: behind →
        ∀ other, index.RefersTo schema other → other ∈ before := by
  intro index
  refine ⟨dependencyOrder_isOk_iff, fun order h ↦ ?_⟩
  obtain ⟨horder, hall⟩ := dependencyOrder_sound h
  refine ⟨horder.nodup, fun schema ↦ ⟨fun hmem ↦ horder.subset hmem, fun hmem ↦ hall hmem⟩, ?_⟩
  intro before schema behind hsplit other hrefers
  exact horder.mem_of_refersTo hsplit hrefers

end SchemaLang.SchemaIndex
