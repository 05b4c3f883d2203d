import SchemaLang.Proofs.Resolve.Order

/-!
# What resolution looks at

Resolution looks at the names of schemas and at the types of their fields, and at nothing else of
them. So indexes of the same outlines resolve the same fields (`resolve_isOk_iff_of_outlines`) and
have an order of dependencies together (`dependencyOrder_isOk_iff_of_outlines`).
-/

namespace SchemaLang

/-- What resolution looks at of a schema: its name and the types of its fields. -/
def Schema.outline (schema : Schema) : String × List String :=
  (schema.name, schema.fields.map Field.type)

theorem Field.primitive?_of_type_eq {field counterpart : Field}
    (h : counterpart.type = field.type) : counterpart.primitive? = field.primitive? :=
  congrArg Primitive.ofName? h

namespace SchemaIndex

open Relation

variable {index other : SchemaIndex}

section Outlines

variable (h : index.schemas.map Schema.outline = other.schemas.map Schema.outline)

include h

theorem exists_counterpart {schema : Schema} (hmem : schema ∈ index.schemas) :
    ∃ counterpart ∈ other.schemas, counterpart.outline = schema.outline :=
  List.mem_map.1 (h ▸ List.mem_map_of_mem hmem)

theorem resolved_of_outlines {field counterpart : Field} (htype : counterpart.type = field.type)
    (hresolved : ∃ type, index.resolve field = .ok type) :
    ∃ type, other.resolve counterpart = .ok type := by
  rw [resolve_isOk_iff] at hresolved ⊢
  rw [Field.primitive?_of_type_eq htype, htype]
  refine hresolved.imp_right fun ⟨schema, hmem, hname⟩ ↦ ?_
  obtain ⟨target, htarget, houtline⟩ := exists_counterpart h hmem
  exact ⟨target, htarget, (congrArg Prod.fst houtline).trans hname⟩

theorem allResolved_of_outlines (hresolved : index.AllResolved) : other.AllResolved := by
  intro counterpart hcounterpart field hfield
  obtain ⟨schema, hmem, houtline⟩ := exists_counterpart h.symm hcounterpart
  have htypes : schema.fields.map Field.type = counterpart.fields.map Field.type :=
    congrArg Prod.snd houtline
  obtain ⟨original, horiginal, htype⟩ := List.mem_map.1 (htypes ▸ List.mem_map_of_mem hfield)
  exact resolved_of_outlines h htype.symm (hresolved schema hmem original horiginal)

theorem refersTo_of_outlines {schema target counterpart : Schema}
    (hrefers : index.RefersTo schema target) (hmem : counterpart ∈ other.schemas)
    (houtline : counterpart.outline = schema.outline) :
    ∃ reached ∈ other.schemas, reached.outline = target.outline ∧
      other.RefersTo counterpart reached := by
  obtain ⟨-, field, hfield, hresolve⟩ := hrefers
  obtain ⟨hprimitive, hget⟩ := resolve_eq_schema_iff.1 hresolve
  obtain ⟨reached, hreached, hsame⟩ := exists_counterpart h (mem_of_get? hget)
  have htypes : counterpart.fields.map Field.type = schema.fields.map Field.type :=
    congrArg Prod.snd houtline
  obtain ⟨original, horiginal, htype⟩ := List.mem_map.1 (htypes ▸ List.mem_map_of_mem hfield)
  have hname : reached.name = original.type :=
    (congrArg Prod.fst hsame).trans ((name_of_get? hget).trans htype.symm)
  refine ⟨reached, hreached, hsame, hmem, original, horiginal, resolve_eq_schema_iff.2 ⟨?_, ?_⟩⟩
  · rw [Field.primitive?_of_type_eq htype, hprimitive]
  · exact get?_eq_some_iff.2 ⟨hreached, hname⟩

theorem transGen_of_outlines {schema target counterpart : Schema}
    (hrefers : TransGen index.RefersTo schema target) (hmem : counterpart ∈ other.schemas)
    (houtline : counterpart.outline = schema.outline) :
    ∃ reached ∈ other.schemas, reached.outline = target.outline ∧
      TransGen other.RefersTo counterpart reached := by
  induction hrefers with
  | single hstep =>
    obtain ⟨reached, hreached, hsame, hrefers⟩ := refersTo_of_outlines h hstep hmem houtline
    exact ⟨reached, hreached, hsame, .single hrefers⟩
  | tail _ hstep ih =>
    obtain ⟨middle, hmiddle, hmiddleSame, hbefore⟩ := ih
    obtain ⟨reached, hreached, hsame, hrefers⟩ := refersTo_of_outlines h hstep hmiddle hmiddleSame
    exact ⟨reached, hreached, hsame, hbefore.tail hrefers⟩

theorem acyclic_of_outlines (hacyclic : index.Acyclic) : other.Acyclic := by
  intro schema hcycle
  obtain ⟨_, hfirst, -⟩ := TransGen.head'_iff.1 hcycle
  obtain ⟨counterpart, hmem, houtline⟩ := exists_counterpart h.symm hfirst.1
  obtain ⟨reached, hreached, hsame, hback⟩ :=
    transGen_of_outlines h.symm hcycle hmem houtline
  have hname : reached.name = counterpart.name := congrArg Prod.fst (hsame.trans houtline.symm)
  obtain rfl := eq_of_name_eq hreached hmem hname
  exact hacyclic _ hback

theorem resolve_isOk_iff_of_outlines {field counterpart : Field}
    (htype : counterpart.type = field.type) :
    (∃ type, index.resolve field = .ok type) ↔ ∃ type, other.resolve counterpart = .ok type :=
  ⟨resolved_of_outlines h htype, resolved_of_outlines h.symm htype.symm⟩

theorem dependencyOrder_isOk_iff_of_outlines :
    (∃ order, index.dependencyOrder = .ok order) ↔ ∃ order, other.dependencyOrder = .ok order := by
  rw [dependencyOrder_isOk_iff, dependencyOrder_isOk_iff]
  constructor
  · intro ⟨hresolved, hacyclic⟩
    exact ⟨allResolved_of_outlines h hresolved, acyclic_of_outlines h hacyclic⟩
  · intro ⟨hresolved, hacyclic⟩
    exact ⟨allResolved_of_outlines h.symm hresolved, acyclic_of_outlines h.symm hacyclic⟩

end Outlines

end SchemaIndex

end SchemaLang
