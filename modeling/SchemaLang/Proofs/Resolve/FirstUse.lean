import Mathlib.Data.List.Induction
import SchemaLang.Resolve.ItemSerializer

/-!
# Item serializers in order of first use

The item serializers of schemas are those that some field asks for, each listed once, in the order
of the first fields that ask for them (`itemSerializers_first_use`). A field behind others adds its
serializer only if none of them asks for it (`fieldSerializers_concat`). So schemas behind others
add what is missing there, in the order in which they list it by themselves.
-/

namespace SchemaLang

/-! ## What a field asks for -/

/-- A field that is an array of a primitive type asks for the serializer of its items, unless these
are byte arrays. -/
def Field.AsksFor (field : Field) (serializer : String) : Prop :=
  field.isArray = true ∧ ∃ type : Primitive, field.primitive? = some type ∧
    type.isBytes = false ∧ type.itemSerializer = serializer

theorem Field.itemSerializer?_eq_some_iff {field : Field} {serializer : String} :
    field.itemSerializer? = some serializer ↔ field.AsksFor serializer := by
  unfold itemSerializer? AsksFor
  split
  case isTrue harray =>
    simp only [Option.map_eq_some_iff, Option.filter_eq_some_iff, Bool.not_eq_true', and_assoc,
      harray, true_and]
  case isFalse harray => simp [harray]

instance (field : Field) (serializer : String) : Decidable (field.AsksFor serializer) :=
  decidable_of_iff _ Field.itemSerializer?_eq_some_iff

/-- The place of the first field that asks for a serializer, behind all fields if none does. -/
def firstUse (fields : List Field) (serializer : String) : Nat :=
  fields.findIdx fun field ↦ field.AsksFor serializer

/-! ## Field after field -/

/-- The item serializers that fields ask for, in order of first use. -/
def fieldSerializers (fields : List Field) : List String :=
  (fields.filterMap Field.itemSerializer?).eraseDups

theorem itemSerializers_eq (schemas : List Schema) :
    itemSerializers schemas = fieldSerializers (schemas.flatMap Schema.fields) := by
  rw [itemSerializers, fieldSerializers, List.filterMap_flatMap]

theorem mem_fieldSerializers_iff {fields : List Field} {serializer : String} :
    serializer ∈ fieldSerializers fields ↔ ∃ field ∈ fields, field.AsksFor serializer := by
  simp only [fieldSerializers, List.mem_eraseDups, List.mem_filterMap,
    Field.itemSerializer?_eq_some_iff]

theorem firstUse_lt_length_iff {fields : List Field} {serializer : String} :
    firstUse fields serializer < fields.length ↔ serializer ∈ fieldSerializers fields := by
  simp only [firstUse, List.findIdx_lt_length, decide_eq_true_eq, mem_fieldSerializers_iff]

/-- Further fields do not change a first use. -/
theorem firstUse_append {front back : List Field} {serializer : String}
    (h : serializer ∈ fieldSerializers front) :
    firstUse (front ++ back) serializer = firstUse front serializer :=
  List.findIdx_append.trans (if_pos (firstUse_lt_length_iff.2 h))

/-- A serializer that none of the fields asks for is first used behind them. -/
theorem length_le_firstUse_append {front : List Field} {serializer : String}
    (h : serializer ∉ fieldSerializers front) (back : List Field) :
    front.length ≤ firstUse (front ++ back) serializer := by
  have hlate := firstUse_lt_length_iff.not.2 h
  rw [firstUse] at hlate ⊢
  rw [List.findIdx_append, if_neg hlate]
  exact Nat.le_add_left _ _

/-- A field adds the serializer that it asks for, unless a field before it asks for the same. -/
theorem fieldSerializers_concat (fields : List Field) (field : Field) :
    fieldSerializers (fields ++ [field]) = fieldSerializers fields ++
      field.itemSerializer?.toList.filter (· ∉ fieldSerializers fields) := by
  have hknown : ∀ serializer, serializer ∈ fields.filterMap Field.itemSerializer? ↔
      serializer ∈ fieldSerializers fields := fun _ ↦ List.mem_eraseDups.symm
  rw [fieldSerializers, List.filterMap_append, List.eraseDups_append, ← fieldSerializers]
  cases hasks : field.itemSerializer? with
  | none => simp [hasks]
  | some serializer =>
    by_cases hmem : serializer ∈ fieldSerializers fields <;>
      simp [hasks, List.removeAll, List.eraseDups_cons, hknown, hmem]

/-- Each serializer is first used before those listed behind it. -/
theorem pairwise_fieldSerializers (fields : List Field) :
    (fieldSerializers fields).Pairwise fun first second ↦
      firstUse fields first < firstUse fields second := by
  induction fields using List.reverseRecOn with
  | nil => exact List.Pairwise.nil
  | append_singleton fields field ih =>
    rw [fieldSerializers_concat, List.pairwise_append]
    refine ⟨?_, ?_, ?_⟩
    · refine ih.imp_of_mem fun hfirst hsecond hlt ↦ ?_
      rwa [firstUse_append hfirst, firstUse_append hsecond]
    · cases field.itemSerializer? with
      | none => exact List.Pairwise.nil
      | some serializer => exact (List.pairwise_singleton _ serializer).filter _
    · intro first hfirst second hsecond
      have hnew : second ∉ fieldSerializers fields :=
        of_decide_eq_true (List.mem_filter.1 hsecond).2
      calc firstUse (fields ++ [field]) first
          = firstUse fields first := firstUse_append hfirst
        _ < fields.length := firstUse_lt_length_iff.2 hfirst
        _ ≤ firstUse (fields ++ [field]) second := length_le_firstUse_append hnew [field]

/-- Fields behind others add what these do not ask for, in their own order. -/
theorem fieldSerializers_append (front back : List Field) :
    fieldSerializers (front ++ back) = fieldSerializers front ++
      (fieldSerializers back).filter (· ∉ fieldSerializers front) := by
  induction back using List.reverseRecOn with
  | nil => simp [fieldSerializers]
  | append_singleton back field ih =>
    have hboth : ∀ serializer, serializer ∈ fieldSerializers (front ++ back) ↔
        serializer ∈ fieldSerializers front ∨ serializer ∈ fieldSerializers back := by
      simp only [mem_fieldSerializers_iff, List.mem_append, or_and_right, exists_or, implies_true]
    have hadded (added : List String) :
        added.filter (· ∉ fieldSerializers (front ++ back)) =
          (added.filter (· ∉ fieldSerializers back)).filter (· ∉ fieldSerializers front) := by
      rw [List.filter_filter]
      refine List.filter_congr fun serializer _ ↦ ?_
      simp only [hboth, not_or, Bool.decide_and]
    calc fieldSerializers (front ++ (back ++ [field]))
        = fieldSerializers (front ++ back) ++ field.itemSerializer?.toList.filter
            (· ∉ fieldSerializers (front ++ back)) := by
          rw [← List.append_assoc, fieldSerializers_concat]
      _ = fieldSerializers front ++ ((fieldSerializers back).filter (· ∉ fieldSerializers front) ++
            (field.itemSerializer?.toList.filter (· ∉ fieldSerializers back)).filter
              (· ∉ fieldSerializers front)) := by
          rw [hadded, ih, List.append_assoc]
      _ = fieldSerializers front ++ (fieldSerializers (back ++ [field])).filter
            (· ∉ fieldSerializers front) := by
          rw [fieldSerializers_concat back, List.filter_append]

/-! ## Schema after schema -/

/--
The item serializers of schemas have no repetitions and are those that an array of a primitive type
other than byte arrays asks for, in the order of the first fields that ask for them. Behind those of
some schemas stand, for further ones, the serializers that the former do not ask for, in the order
that the latter have by themselves.
-/
theorem itemSerializers_first_use (schemas others : List Schema) :
    (itemSerializers schemas).Nodup ∧
    (∀ serializer, serializer ∈ itemSerializers schemas ↔
      ∃ schema ∈ schemas, ∃ field ∈ schema.fields, field.isArray = true ∧
        ∃ type : Primitive, field.primitive? = some type ∧ type.isBytes = false ∧
          type.itemSerializer = serializer) ∧
    ((itemSerializers schemas).Pairwise fun first second ↦
      firstUse (schemas.flatMap Schema.fields) first <
        firstUse (schemas.flatMap Schema.fields) second) ∧
    itemSerializers (schemas ++ others) = itemSerializers schemas ++
      (itemSerializers others).filter (· ∉ itemSerializers schemas) := by
  have horder := pairwise_fieldSerializers (schemas.flatMap Schema.fields)
  simp only [itemSerializers_eq, List.flatMap_append]
  refine ⟨horder.imp fun hlt heq ↦ ?_, fun serializer ↦ ?_, horder, fieldSerializers_append _ _⟩
  · exact Nat.ne_of_lt hlt (congrArg _ heq)
  rw [mem_fieldSerializers_iff]
  constructor
  · rintro ⟨field, hfield, hasks⟩
    obtain ⟨schema, hschema, hmem⟩ := List.mem_flatMap.1 hfield
    exact ⟨schema, hschema, field, hmem, hasks⟩
  · rintro ⟨schema, hschema, field, hmem, hasks⟩
    exact ⟨field, List.mem_flatMap.2 ⟨schema, hschema, hmem⟩, hasks⟩

/-- `B` adds only what `A` does not ask for; byte arrays, arrays of schemas and what is no array ask
for nothing. -/
example :
    let array (type : String) : Field := { name := "x", type, isArray := true }
    let a : Schema := ⟨"A", [array "string8", array "byte8", { name := "n", type := "bool" },
      array "int32"]⟩
    let b : Schema := ⟨"B", [array "int32", array "bool", array "A", array "bool"]⟩
    itemSerializers [a, b] =
      ["serializeString8ArrayItem", "serializeInt32ArrayItem", "serializeBoolArrayItem"] := by
  decide

end SchemaLang
