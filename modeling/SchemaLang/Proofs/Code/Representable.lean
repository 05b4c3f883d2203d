import SchemaLang.Proofs.Code.File
import SchemaLang.Proofs.Resolve.Nesting
import SchemaLang.Proofs.Resolve.Outline

/-!
# What code can be generated for

Code generation adds few conditions to resolution, and each of them is about one field: a byte array
of fixed length needs its length, and a default value has to suit the type of a field that is no
array (`Field.Representable`). With an order of dependencies these are all the conditions on
schemas, since every field then has a default. Of methods only the types are resolved
(`fileOf_isOk_iff`).
-/

namespace SchemaLang

open CodeError (ofResolve)

/-- What a field has to be in itself so that code can be generated for it. -/
structure Field.Representable (field : Field) : Prop where
  length : field.primitive? = some .byteN → ∃ length, field.fixedLength = .ok length
  default : ∀ value, field.default = some value → field.isArray = false ∧
    ∃ type expression, field.primitive? = some type ∧
      Code.literalExpression? type value = some expression

namespace Code

variable {index : SchemaIndex} {field : Field}

theorem remarks_isOk_iff : (∃ part, remarks field = .ok part) ↔
    (field.primitive? = some .byteN → ∃ length, field.fixedLength = .ok length) := by
  have hremarks : (∃ part, remarks field = .ok part) ↔ ∃ part, encodingRemarks field = .ok part :=
    bind_isOk_iff.trans (exists_congr fun _ ↦ and_iff_left ⟨_, rfl⟩)
  rw [hremarks, encodingRemarks]
  split
  case h_1 htype => simp [htype]
  case h_2 htype =>
    simp only [bind_isOk_iff, ofResolve_eq_ok, htype, true_imp_iff]
    constructor
    · intro ⟨length, hlength, _⟩
      exact ⟨length, hlength⟩
    · intro ⟨length, hlength⟩
      cases length <;> exact ⟨_, hlength, _, rfl⟩
  case h_3 htype => exact iff_of_true ⟨_, rfl⟩ fun hbytes ↦ absurd hbytes htype

theorem fieldType_isOk_iff : (∃ type, fieldType index field = .ok type) ↔
    ∃ type, index.resolve field = .ok type := by
  rw [fieldType, bind_isOk_iff]
  simp only [ofResolve_eq_ok]
  exact exists_congr fun _ ↦ and_iff_left ⟨_, rfl⟩

theorem fieldType_of_primitive {type : Primitive} (harray : field.isArray = false)
    (htype : field.primitive? = some type) : fieldType index field =
      .ok (if field.optional then (CodeType.ofPrimitive type).optional else .ofPrimitive type) := by
  rw [fieldType, SchemaIndex.resolve, htype, harray]
  rfl

/-- How a literal is written: as its text, as an integer, as a truth value or as bytes. -/
theorem literalExpression?_cases {type : Primitive} {value : Literal} {expression : Expression}
    (h : literalExpression? type value = some expression) :
    (type.isString = true ∧ expression = .string value.display) ∨
    (type.isString = false ∧ ∃ n, value = .integer n ∧
      (CodeType.ofPrimitive type).admits n.toInt = true ∧ expression = .integer n.toInt) ∨
    (type = .bool ∧ ∃ truth, (value = .bool truth ∨
      value = .text (if truth then "true" else "false")) ∧ expression = .bool truth) ∨
    (type.isBytes = true ∧ ∃ text, value = .text text ∧ expression = .bytes text) := by
  have hbool (hbool : type.isBool = true) : type = .bool := by
    cases type <;> first | rfl | cases hbool
  have hother (hnot : ¬type.isString = true) : type.isString = false := Bool.eq_false_iff.2 hnot
  cases value with
  | bool truth =>
    dsimp only [literalExpression?] at h
    split_ifs at h with hstring htype <;> cases h
    · exact .inl ⟨hstring, rfl⟩
    · exact .inr (.inr (.inl ⟨hbool htype, truth, .inl rfl, rfl⟩))
  | integer n =>
    dsimp only [literalExpression?] at h
    split_ifs at h with hstring hadmits <;> cases h
    · exact .inl ⟨hstring, rfl⟩
    · exact .inr (.inl ⟨hother hstring, n, rfl, hadmits, rfl⟩)
  | float x =>
    dsimp only [literalExpression?] at h
    split_ifs at h with hstring
    cases h
    exact .inl ⟨hstring, rfl⟩
  | text text =>
    dsimp only [literalExpression?] at h
    split_ifs at h with hstring htype htrue hfalse hbytes <;> cases h
    · exact .inl ⟨hstring, rfl⟩
    · exact .inr (.inr (.inl ⟨hbool htype, true, .inr (congrArg Literal.text htrue), rfl⟩))
    · exact .inr (.inr (.inl ⟨hbool htype, false, .inr (congrArg Literal.text hfalse), rfl⟩))
    · exact .inr (.inr (.inr ⟨hbytes, text, rfl, rfl⟩))

/-- A written default is the only one that is a literal. -/
theorem defaultOn_ne_explicit {walk : List String} (h : field.default = none) (written : Literal) :
    index.defaultOn walk field ≠ .ok (.explicit written) := by
  intro hvalue
  rcases SchemaIndex.defaultOn_cases h hvalue with ⟨-, hexplicit⟩ | ⟨-, type, -, hexplicit⟩ |
    ⟨-, schema, values, -, -, -, -, hexplicit⟩
  · cases hexplicit
  · unfold Primitive.defaultValue at hexplicit
    split_ifs at hexplicit
  · cases hexplicit

/-- The expression of a written default. -/
theorem defaultExpression_of_written {value : Literal} (h : field.default = some value) :
    defaultExpression index field =
      if field.isArray then .error (.arrayDefault field.name)
      else match field.primitive?.bind (literalExpression? · value) with
        | some expression => .ok (if field.optional then .some expression else expression)
        | none => .error (.unfitDefault value field.name field.type) := by
  rw [defaultExpression, SchemaIndex.defaultOf, SchemaIndex.defaultOn_of_written h, h]
  simp only [Option.isSome_some, Bool.and_true, if_true, ofResolve, ok_bind, valueExpression]
  cases field.primitive?.bind (literalExpression? · value) <;> cases field.optional <;> rfl

theorem defaultExpression_isOk_iff_of_none (h : field.default = none) :
    (∃ expression, defaultExpression index field = .ok expression) ↔
      ∃ value, index.defaultOf field = .ok value := by
  have harray : ¬(field.isArray && field.default.isSome) = true := by
    simp [h]
  rw [defaultExpression, if_neg harray, bind_isOk_iff]
  simp only [ofResolve_eq_ok]
  refine exists_congr fun value ↦ and_iff_left_of_imp fun hvalue ↦ ?_
  rw [h]
  split
  · exact ⟨_, rfl⟩
  · cases value with
    | explicit written => exact absurd hvalue (defaultOn_ne_explicit h written)
    | _ => exact ⟨_, rfl⟩

theorem defaultExpression_isOk_iff_of_written {value : Literal} (h : field.default = some value) :
    (∃ expression, defaultExpression index field = .ok expression) ↔
      field.isArray = false ∧ ∃ type expression, field.primitive? = some type ∧
        literalExpression? type value = some expression := by
  rw [defaultExpression_of_written h]
  cases field.isArray with
  | true => simp
  | false =>
    rw [if_neg Bool.false_ne_true]
    cases hexpression : field.primitive?.bind (literalExpression? · value) with
    | none =>
      refine iff_of_false nofun fun ⟨_, type, expression, htype, hliteral⟩ ↦ ?_
      rw [htype, Option.bind_some, hliteral] at hexpression
      cases hexpression
    | some expression =>
      obtain ⟨type, htype, hliteral⟩ := Option.bind_eq_some_iff.1 hexpression
      exact iff_of_true ⟨_, rfl⟩ ⟨rfl, type, expression, htype, hliteral⟩

/-- The part of a struct for a field, given that resolution has no objection to the field. -/
theorem structField_isOk_iff (hresolved : ∃ type, index.resolve field = .ok type)
    (hdefault : ∃ value, index.defaultOf field = .ok value) :
    (∃ part, structField index field = .ok part) ↔ field.Representable := by
  have hpart : (∃ part, structField index field = .ok part) ↔
      (∃ part, remarks field = .ok part) ∧
        ∃ expression, defaultExpression index field = .ok expression := by
    obtain ⟨type, htype⟩ := fieldType_isOk_iff.2 hresolved
    constructor
    · intro ⟨part, hpart⟩
      obtain ⟨hremarks, -, -, hexpression⟩ := structField_eq_ok.1 hpart
      exact ⟨⟨_, hremarks⟩, _, hexpression⟩
    · intro ⟨⟨part, hremarks⟩, expression, hexpression⟩
      refine ⟨⟨part, memberName field.name, type, expression⟩, structField_eq_ok.2 ?_⟩
      dsimp only
      exact ⟨hremarks, rfl, htype, hexpression⟩
  have hwritten : (∃ expression, defaultExpression index field = .ok expression) ↔
      ∀ value, field.default = some value → field.isArray = false ∧
        ∃ type expression, field.primitive? = some type ∧
          literalExpression? type value = some expression := by
    cases hdefault' : field.default with
    | none => exact iff_of_true ((defaultExpression_isOk_iff_of_none hdefault').2 hdefault) nofun
    | some value =>
      rw [defaultExpression_isOk_iff_of_written hdefault']
      simp
  rw [hpart, remarks_isOk_iff, hwritten]
  exact ⟨fun ⟨hlength, hvalue⟩ ↦ ⟨hlength, hvalue⟩, fun h ↦ ⟨h.length, h.default⟩⟩

theorem structOf_isOk_iff {schema : Schema} : (∃ struct, structOf index schema = .ok struct) ↔
    ∀ field ∈ schema.fields, ∃ part, structField index field = .ok part := by
  rw [structOf, bind_isOk_iff, ← mapM_isOk_iff]
  exact exists_congr fun _ ↦ and_iff_left ⟨_, rfl⟩

theorem traitMethod_isOk_iff {method : Method} :
    (∃ part, traitMethod index method = .ok part) ↔
      ∀ field ∈ method.fields.toList ++ method.returns.toList,
        ∃ type, index.resolve field = .ok type := by
  have hparameter (field : Field) : (∃ part, parameter index field = .ok part) ↔
      ∃ type, index.resolve field = .ok type := by
    rw [parameter, bind_isOk_iff, ← fieldType_isOk_iff]
    exact exists_congr fun _ ↦ and_iff_left ⟨_, rfl⟩
  have hparameters : (∃ parameters, method.fields.toList.mapM (parameter index) = .ok parameters) ↔
      ∀ field ∈ method.fields.toList, ∃ type, index.resolve field = .ok type := by
    simp only [mapM_isOk_iff, hparameter]
  have hresults : (∃ results, method.returns.toList.mapM (fieldType index) = .ok results) ↔
      ∀ field ∈ method.returns.toList, ∃ type, index.resolve field = .ok type := by
    simp only [mapM_isOk_iff, fieldType_isOk_iff]
  rw [List.forall_mem_append, ← hparameters, ← hresults, traitMethod, bind_isOk_iff]
  simp only [bind_isOk_iff]
  constructor
  · intro ⟨parameters, hparameters, results, hresults, _⟩
    exact ⟨⟨parameters, hparameters⟩, results, hresults⟩
  · intro ⟨⟨parameters, hparameters⟩, results, hresults⟩
    exact ⟨parameters, hparameters, results, hresults, _, rfl⟩

theorem traitOf_isOk_iff {plugin : Plugin} : (∃ trait, traitOf index plugin = .ok trait) ↔
    ∀ method ∈ plugin.methods, ∀ field ∈ method.fields.toList ++ method.returns.toList,
      ∃ type, index.resolve field = .ok type := by
  simp only [← traitMethod_isOk_iff]
  rw [traitOf, bind_isOk_iff, ← mapM_isOk_iff]
  exact exists_congr fun _ ↦ and_iff_left ⟨_, rfl⟩

/-- Code can be generated if there is an order, and if every field is fit for it by itself. -/
theorem fileOf_isOk_iff {module : Option String} {definitions : List Definition} :
    (∃ file, fileOf module definitions = .ok file) ↔
      (∃ order, (SchemaIndex.ofDefinitions definitions).dependencyOrder = .ok order) ∧
      (∀ schema ∈ (SchemaIndex.ofDefinitions definitions).schemas,
        ∀ field ∈ schema.fields, field.Representable) ∧
      ∀ plugin ∈ Definition.plugins definitions, ∀ method ∈ plugin.methods,
        ∀ field ∈ method.fields.toList ++ method.returns.toList,
          ∃ type, (SchemaIndex.ofDefinitions definitions).resolve field = .ok type := by
  obtain ⟨index, hindex⟩ : ∃ index, SchemaIndex.ofDefinitions definitions = index := ⟨_, rfl⟩
  rw [hindex]
  have hfile : (∃ file, fileOf module definitions = .ok file) ↔
      ∃ order, index.dependencyOrder = .ok order ∧
        (∃ structs, order.mapM (structOf index) = .ok structs) ∧
        ∃ traits, (Definition.plugins definitions).mapM (traitOf index) = .ok traits := by
    unfold fileOf
    simp only [bind_isOk_iff, ofResolve_eq_ok, hindex]
    refine exists_congr fun order ↦ and_congr_right fun _ ↦ ?_
    constructor
    · intro ⟨structs, hstructs, traits, htraits, _⟩
      exact ⟨⟨structs, hstructs⟩, traits, htraits⟩
    · intro ⟨⟨structs, hstructs⟩, traits, htraits⟩
      exact ⟨structs, hstructs, traits, htraits, _, rfl⟩
  have hstructs {order : List Schema} (horder : index.dependencyOrder = .ok order) :
      (∃ structs, order.mapM (structOf index) = .ok structs) ↔
        ∀ schema ∈ index.schemas, ∀ field ∈ schema.fields, field.Representable := by
    obtain ⟨hresolved, hacyclic⟩ := SchemaIndex.dependencyOrder_isOk_iff.1 ⟨order, horder⟩
    simp only [mapM_isOk_iff, structOf_isOk_iff,
      (SchemaIndex.dependencyOrder_perm horder).mem_iff]
    refine forall₂_congr fun schema hschema ↦ forall₂_congr fun field hfield ↦ ?_
    have htype := hresolved schema hschema field hfield
    exact structField_isOk_iff htype
      (SchemaIndex.exists_defaultOf_of_acyclic hresolved hacyclic htype)
  have htraits : (∃ traits, (Definition.plugins definitions).mapM (traitOf index) = .ok traits) ↔
      ∀ plugin ∈ Definition.plugins definitions, ∀ method ∈ plugin.methods,
        ∀ field ∈ method.fields.toList ++ method.returns.toList,
          ∃ type, index.resolve field = .ok type := by
    simp only [mapM_isOk_iff, traitOf_isOk_iff]
  rw [hfile, htraits]
  constructor
  · intro ⟨order, horder, hfields, hmethods⟩
    exact ⟨⟨order, horder⟩, (hstructs horder).1 hfields, hmethods⟩
  · intro ⟨⟨order, horder⟩, hfields, hmethods⟩
    exact ⟨order, horder, (hstructs horder).2 hfields, hmethods⟩

end Code

end SchemaLang
