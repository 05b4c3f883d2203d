import Mathlib.Data.List.Nodup
import Mathlib.Data.List.Pairwise
import Mathlib.Logic.Relation
import SchemaLang.Resolve.Index

/-!
# References between schemas

A schema of an index refers to the schemas that its fields are resolved to. Some schemas are a
placement of the index if they are schemas of it, none of them twice, and each one comes after all
that it refers to. In a placement no schema refers back to itself (`Placement.acyclic`).
-/

namespace SchemaLang.SchemaIndex

open Relation

variable {index : SchemaIndex}

/-! ## Names and fields -/

theorem eq_of_name_eq {schema other : Schema} (hschema : schema ∈ index.schemas)
    (hother : other ∈ index.schemas) (h : schema.name = other.name) : schema = other := by
  have : Std.Symm fun a b : Schema ↦ a.name ≠ b.name := ⟨fun _ _ hne ↦ Ne.symm hne⟩
  by_contra hne
  exact index.distinct.forall hschema hother hne h

theorem nodup_schemas (index : SchemaIndex) : index.schemas.Nodup :=
  index.distinct.imp fun hne heq ↦ hne (congrArg Schema.name heq)

theorem name_of_get? {name : String} {schema : Schema} (h : index.get? name = some schema) :
    schema.name = name := by
  have hfound := List.find?_some h
  exact of_decide_eq_true hfound

/-- Every schema is found by its own name. -/
theorem get?_eq_some_iff {name : String} {schema : Schema} :
    index.get? name = some schema ↔ schema ∈ index.schemas ∧ schema.name = name := by
  constructor
  · intro h
    exact ⟨mem_of_get? h, name_of_get? h⟩
  · rintro ⟨hmem, rfl⟩
    have hsome : (index.get? schema.name).isSome = true :=
      List.find?_isSome.2 ⟨schema, hmem, decide_eq_true rfl⟩
    obtain ⟨found, hget⟩ := Option.isSome_iff_exists.1 hsome
    rw [hget, eq_of_name_eq (mem_of_get? hget) hmem (name_of_get? hget)]

theorem firstOfEachName_eq_self {schemas : List Schema}
    (h : (schemas.map Schema.name).Nodup) : firstOfEachName schemas = schemas := by
  induction schemas with
  | nil => rfl
  | cons schema rest ih =>
    rw [List.map_cons, List.nodup_cons] at h
    rw [firstOfEachName, ih h.2, List.filter_eq_self.2]
    intro other hother
    exact decide_eq_true fun heq ↦ h.1 (heq ▸ List.mem_map_of_mem hother)

theorem resolve_of_primitive {field : Field} (h : field.primitive?.isSome = true) :
    ∃ type, index.resolve field = .ok (.primitive type) := by
  obtain ⟨type, htype⟩ := Option.isSome_iff_exists.1 h
  exact ⟨type, by rw [resolve, htype]⟩

theorem resolve_of_not_primitive {field : Field} (h : ¬field.primitive?.isSome = true) :
    index.resolve field = match index.get? field.type with
      | some schema => .ok (.schema schema)
      | none => .error (.unresolvedType field.type field.name) := by
  rw [Option.not_isSome_iff_eq_none] at h
  cases hget : index.get? field.type <;> simp only [resolve, h, hget]

theorem resolve_eq_schema_iff {field : Field} {schema : Schema} :
    index.resolve field = .ok (.schema schema) ↔
      field.primitive? = none ∧ index.get? field.type = some schema := by
  rw [resolve]
  cases field.primitive? with
  | some type => simp
  | none => cases index.get? field.type <;> simp

/-- A field is resolved exactly if its type is primitive or the name of a schema. -/
theorem resolve_isOk_iff {field : Field} :
    (∃ type, index.resolve field = .ok type) ↔
      field.primitive?.isSome = true ∨ ∃ schema ∈ index.schemas, schema.name = field.type := by
  simp only [← get?_eq_some_iff]
  rw [resolve]
  cases field.primitive? with
  | some type => simp
  | none => cases index.get? field.type <;> simp

/-! ## References -/

/-- A schema of the index has a field that is resolved to another schema. -/
def RefersTo (index : SchemaIndex) (schema other : Schema) : Prop :=
  schema ∈ index.schemas ∧ ∃ field ∈ schema.fields, index.resolve field = .ok (.schema other)

/-- Every field of every schema of the index is resolved. -/
def AllResolved (index : SchemaIndex) : Prop :=
  ∀ schema ∈ index.schemas, ∀ field ∈ schema.fields, ∃ type, index.resolve field = .ok type

/-- No schema of the index refers to itself, directly or through others. -/
def Acyclic (index : SchemaIndex) : Prop := ∀ schema, ¬TransGen index.RefersTo schema schema

/-- A field is resolved to a primitive type or to one of some schemas. -/
def ResolvedWithin (index : SchemaIndex) (schemas : List Schema) (field : Field) : Prop :=
  ∃ type, index.resolve field = .ok type ∧ ∀ schema, type = .schema schema → schema ∈ schemas

/-- Schemas of the index, each new and after all that it refers to. -/
inductive Placement (index : SchemaIndex) : List Schema → Prop
  | nil : Placement index []
  | concat {placed : List Schema} {schema : Schema} (placement : Placement index placed)
      (indexed : schema ∈ index.schemas) (new : schema ∉ placed)
      (resolved : ∀ field ∈ schema.fields, index.ResolvedWithin placed field) :
      Placement index (placed ++ [schema])

namespace Placement

variable {placed : List Schema}

theorem subset (h : Placement index placed) : placed ⊆ index.schemas := by
  induction h with
  | nil => exact List.nil_subset _
  | concat _ hindexed _ _ ih =>
    exact List.append_subset.2 ⟨ih, List.cons_subset.2 ⟨hindexed, List.nil_subset _⟩⟩

theorem nodup (h : Placement index placed) : placed.Nodup := by
  induction h with
  | nil => exact List.nodup_nil
  | concat _ _ hnew _ ih =>
    rw [← List.concat_eq_append]
    exact List.Nodup.concat hnew ih

/-- Fields of a placed schema are resolved to schemas before it. -/
theorem resolvedWithin (h : Placement index placed) {before behind : List Schema} {schema : Schema}
    (hsplit : placed = before ++ schema :: behind) {field : Field}
    (hfield : field ∈ schema.fields) : index.ResolvedWithin before field := by
  induction h generalizing behind with
  | nil => simp at hsplit
  | concat _ _ _ hresolved ih =>
    rcases List.eq_nil_or_concat behind with rfl | ⟨front, last, rfl⟩
    · obtain ⟨rfl, rfl⟩ := List.append_singleton_inj.1 hsplit
      exact hresolved field hfield
    · rw [List.concat_eq_append, ← List.cons_append, ← List.append_assoc] at hsplit
      exact ih (List.append_singleton_inj.1 hsplit).1

theorem mem_of_refersTo (h : Placement index placed) {before behind : List Schema}
    {schema other : Schema} (hsplit : placed = before ++ schema :: behind)
    (hrefers : index.RefersTo schema other) : other ∈ before := by
  obtain ⟨-, field, hfield, hother⟩ := hrefers
  obtain ⟨type, htype, hmem⟩ := h.resolvedWithin hsplit hfield
  rw [hother, Except.ok.injEq] at htype
  exact hmem other htype.symm

/-- What a placed schema refers to through others is placed. -/
theorem mem_of_reflTransGen (h : Placement index placed) {schema other : Schema}
    (hschema : schema ∈ placed) (hrefers : ReflTransGen index.RefersTo schema other) :
    other ∈ placed := by
  induction hrefers with
  | refl => exact hschema
  | tail _ hlast ih =>
    obtain ⟨before, behind, hsplit⟩ := List.append_of_mem ih
    rw [hsplit]
    exact List.mem_append_left _ (h.mem_of_refersTo hsplit hlast)

theorem acyclic (h : Placement index placed) {schema : Schema} (hschema : schema ∈ placed) :
    ¬TransGen index.RefersTo schema schema := by
  induction h with
  | nil => exact absurd hschema List.not_mem_nil
  | concat hplacement hindexed hnew hresolved ih =>
    rcases List.mem_append.1 hschema with hplaced | hlast
    · exact ih hplaced
    · rw [List.mem_singleton] at hlast
      subst hlast
      intro hcycle
      -- The first step of a cycle leads among the placed schemas, and no reference leads out.
      obtain ⟨other, hfirst, hrest⟩ := TransGen.head'_iff.1 hcycle
      have hother := (hplacement.concat hindexed hnew hresolved).mem_of_refersTo rfl hfirst
      exact hnew (hplacement.mem_of_reflTransGen hother hrest)

end Placement

end SchemaLang.SchemaIndex
