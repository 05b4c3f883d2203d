import SchemaLang.Proofs.Code.Representable
import SchemaLang.Proofs.Source.FieldPlace
import SchemaLang.Proofs.Source.Names

/-!
# Code for one field among others

Definitions with another field of the same type at one place are resolved as before. So whether code
can be generated for them depends on this field by itself (`fileOf_fill_isOk_iff`), and what is
generated for the field is at its place in the struct of its schema (`exists_part_of_fileOf_fill`).
-/

namespace SchemaLang.Code

/-- What stands around a field of a schema among definitions. -/
structure FieldContext where
  /-- The definitions before the schema. -/
  before : List Definition
  /-- The name of the schema. -/
  name : String
  /-- The fields before the field. -/
  front : List Field
  /-- The fields behind the field. -/
  back : List Field
  /-- The definitions behind the schema. -/
  behind : List Definition

namespace FieldContext

variable (context : FieldContext) {field other : Field}

/-- The schema with a field at the place. -/
def schema (field : Field) : Schema := ⟨context.name, context.front ++ field :: context.back⟩

/-- The definitions with a field at the place. -/
def fill (field : Field) : List Definition :=
  context.before ++ .schema (context.schema field) :: context.behind

theorem schemas_fill (field : Field) : Definition.schemas (context.fill field) =
    Definition.schemas context.before ++
      context.schema field :: Definition.schemas context.behind := by
  simp [Definition.schemas, fill, Definition.schema?]

theorem plugins_fill (field : Field) : Definition.plugins (context.fill field) =
    Definition.plugins context.before ++ Definition.plugins context.behind := by
  rw [Definition.plugins, fill, List.filterMap_append, List.filterMap_cons_none rfl]
  rfl

theorem names_fill (field other : Field) : (context.fill field).map Definition.name =
    (context.fill other).map Definition.name := by
  simp [fill, Definition.name, schema]

variable {context}

/-- What stands around the field at a place. -/
theorem exists_fill {definitions : List Definition} {item number : Nat} {schema : Schema}
    (hitem : definitions[item]? = some (.schema schema))
    (hfield : schema.fields[number]? = some field) : ∃ context : FieldContext,
      context.name = schema.name ∧ context.front.length = number ∧
      definitions = context.fill field ∧
      ∀ change, FieldPlace.modify ⟨.schema item, number⟩ change definitions =
        context.fill (change field) := by
  obtain ⟨hlength, hget⟩ := List.getElem?_eq_some_iff.1 hitem
  obtain ⟨hlengthFields, hgetField⟩ := List.getElem?_eq_some_iff.1 hfield
  refine ⟨⟨definitions.take item, schema.name, schema.fields.take number,
    schema.fields.drop (number + 1), definitions.drop (item + 1)⟩, rfl,
    List.length_take_of_le (Nat.le_of_lt hlengthFields), ?_, fun change ↦ ?_⟩
  · rw [fill, FieldContext.schema, ← hgetField, ← List.drop_eq_getElem_cons hlengthFields,
      List.take_append_drop]
    dsimp only
    rw [← hget, ← List.drop_eq_getElem_cons hlength, List.take_append_drop]
  · rw [FieldPlace.modify, BlockPlace.modify, List.modify_eq_take_cons_drop hlength, hget,
      Definition.modifySchema, List.modify_eq_take_cons_drop hlengthFields, hgetField]
    rfl

theorem outlines_fill (hnames : ((context.fill field).map Definition.name).Nodup)
    (htype : other.type = field.type) :
    (SchemaIndex.ofDefinitions (context.fill other)).schemas.map Schema.outline =
      (SchemaIndex.ofDefinitions (context.fill field)).schemas.map Schema.outline := by
  rw [schemas_ofDefinitions hnames, schemas_ofDefinitions (context.names_fill other field ▸ hnames),
    schemas_fill, schemas_fill]
  simp [schema, Schema.outline, htype]

/-- With another field of the same type, code can be generated if this field is fit for it. -/
theorem fileOf_fill_isOk_iff (hnames : ((context.fill field).map Definition.name).Nodup)
    (htype : other.type = field.type) (hfield : field.Representable) (module : Option String) :
    (∃ file, fileOf module (context.fill other) = .ok file) ↔
      (∃ file, fileOf module (context.fill field) = .ok file) ∧ other.Representable := by
  have hother : ((context.fill other).map Definition.name).Nodup :=
    context.names_fill other field ▸ hnames
  have houtlines := outlines_fill hnames htype
  have hresolve (field : Field) :
      (∃ type, (SchemaIndex.ofDefinitions (context.fill other)).resolve field = .ok type) ↔ _ :=
    SchemaIndex.resolve_isOk_iff_of_outlines houtlines rfl
  have hfields (field : Field) (hnames : ((context.fill field).map Definition.name).Nodup) :
      (∀ schema ∈ (SchemaIndex.ofDefinitions (context.fill field)).schemas,
        ∀ field ∈ schema.fields, field.Representable) ↔
      (∀ schema ∈ Definition.schemas context.before ++ Definition.schemas context.behind,
        ∀ field ∈ schema.fields, field.Representable) ∧
      (∀ field ∈ context.front ++ context.back, field.Representable) ∧ field.Representable := by
    rw [schemas_ofDefinitions hnames, schemas_fill]
    simp only [List.forall_mem_append, List.forall_mem_cons, schema]
    tauto
  rw [fileOf_isOk_iff, fileOf_isOk_iff, hfields field hnames, hfields other hother, plugins_fill,
    plugins_fill, SchemaIndex.dependencyOrder_isOk_iff_of_outlines houtlines]
  simp only [hresolve]
  tauto

/-- The part of the generated code for the field. -/
theorem exists_part_of_fileOf_fill (hnames : ((context.fill field).map Definition.name).Nodup)
    {module : Option String} {file : CodeFile} (h : fileOf module (context.fill field) = .ok file) :
    ∃ struct ∈ file.structs, struct.name = typeName context.name ∧ ∃ part,
      struct.fields[context.front.length]? = some part ∧
      structField (.ofDefinitions (context.fill field)) field = .ok part := by
  obtain ⟨order, horder, hstructs, -, -⟩ := fileOf_eq_ok_iff.1 h
  have hmem : context.schema field ∈ order := by
    rw [(SchemaIndex.dependencyOrder_perm horder).mem_iff, schemas_ofDefinitions hnames,
      schemas_fill]
    exact List.mem_append_right _ List.mem_cons_self
  obtain ⟨struct, hstruct, hpart⟩ := exists_value_of_mem hstructs hmem
  obtain ⟨hname, hfields⟩ := structOf_eq_ok.1 hpart
  have hlt : context.front.length < (context.schema field).fields.length := by
    rw [schema, List.length_append, List.length_cons]
    omega
  have hpart := hfields.get hlt (hfields.length_eq ▸ hlt)
  refine ⟨struct, hstruct, hname, _, List.getElem?_eq_getElem (hfields.length_eq ▸ hlt), ?_⟩
  simpa [schema] using hpart

end FieldContext

end SchemaLang.Code
