import SchemaLang.Definition.Interchange
import SchemaLang.Proofs.Json.Record

/-!
# Definitions are read back

A literal reads back from a JSON text unless it is a binary number that is not finite, or one whose
text the reader takes for another number. Records and lists read back exactly if their parts do, so
definitions read back exactly if each of their literals does (`Definition.ofText?_spreadText_iff`).
-/

namespace SchemaLang

open Json (reread? reread?_string rereadMember? rereadMember?_some ofRecord recordMembers)

variable {depth : Nat}

/-! ## Literals -/

/-- A literal is read from the JSON text that is written for it. -/
def Literal.ReadsBack (literal : Literal) : Prop :=
  (Json.read? literal.toJson.compact).bind Literal.ofJson? = some literal

instance (literal : Literal) : Decidable literal.ReadsBack :=
  inferInstanceAs (Decidable (_ = _))

namespace Literal

theorem readsBack_iff (literal : Literal) :
    literal.ReadsBack ↔ (reread? Json.maxDepth literal.toJson).bind ofJson? = some literal := by
  rw [ReadsBack, Json.read?_compact]

theorem readsBack_bool (value : Bool) : (bool value).ReadsBack := by
  rw [readsBack_iff, toJson, reread?]
  rfl

theorem readsBack_text (value : String) : (text value).ReadsBack := by
  rw [readsBack_iff, toJson, reread?]
  rfl

theorem reread?_integer (depth : Nat) (n : Int64) :
    reread? depth (.integer n.toInt) = some (.integer n.toInt) := by
  have hhigh := n.toInt_lt
  rw [reread?, Json.numberOf?_integerText n.le_toInt (by omega)]

theorem ofJson?_integer (n : Int64) : ofJson? (.integer n.toInt) = some (integer n) := by
  have hsigned : inSigned64 n.toInt = true := by
    simp only [inSigned64, Bool.and_eq_true, decide_eq_true_eq]
    exact ⟨n.le_toInt, n.toInt_lt⟩
  rw [ofJson?, if_pos hsigned, Int64.ofInt_toInt]

theorem readsBack_integer (n : Int64) : (integer n).ReadsBack := by
  rw [readsBack_iff, toJson, reread?_integer, Option.bind_some, ofJson?_integer]

/-- A binary number is read back exactly if its digits are read as the same number. -/
theorem readsBack_float_iff (x : Binary64) :
    (float x).ReadsBack ↔ Json.numberOf? (Json.floatText x) = some (.float x) := by
  rw [readsBack_iff, toJson]
  split
  case isTrue hfinite =>
    rw [reread?, if_pos hfinite]
    cases hvalue : Json.numberOf? (Json.floatText x) with
    | none => simp
    | some value =>
      obtain ⟨y, -, rfl⟩ := Json.exists_float_of_floatText hfinite hvalue
      simp [ofJson?]
  case isFalse hinfinite =>
    rw [Json.numberOf?_floatText_of_not_finite hinfinite, reread?]
    simp [ofJson?]

/-- A binary number that is not finite is never read back. -/
theorem isFinite_of_readsBack {x : Binary64} (h : (float x).ReadsBack) : x.isFinite = true := by
  rw [readsBack_float_iff] at h
  by_contra hinfinite
  rw [Json.numberOf?_floatText_of_not_finite hinfinite] at h
  cases h

/-- Only binary numbers are lost. -/
theorem exists_float_of_not_readsBack {literal : Literal} (h : ¬literal.ReadsBack) :
    ∃ x, literal = float x := by
  cases literal with
  | bool value => exact absurd (readsBack_bool value) h
  | integer n => exact absurd (readsBack_integer n) h
  | float x => exact ⟨x, rfl⟩
  | text value => exact absurd (readsBack_text value) h

/-- A literal that may be missing is read back as a member of a record exactly if it is alone. -/
theorem rereadMember?_iff (literal : Option Literal) :
    (rereadMember? depth (literal.map toJson)).bind (Json.nullable? ofJson?) = some literal ↔
      ∀ value ∈ literal, value.ReadsBack := by
  match literal with
  | none => simp [rereadMember?, Json.nullable?]
  | some (.bool value) =>
    simp [rereadMember?, toJson, reread?, Json.nullable?, ofJson?, readsBack_bool]
  | some (.text value) =>
    simp [rereadMember?, toJson, reread?, Json.nullable?, ofJson?, readsBack_text]
  | some (.integer n) =>
    simp [rereadMember?, toJson, reread?_integer, Json.nullable?, ofJson?_integer,
      readsBack_integer]
  | some (.float x) =>
    simp only [Option.map_some, Option.mem_some_iff, forall_eq', readsBack_float_iff, toJson,
      rereadMember?]
    split
    case isTrue hfinite =>
      rw [reread?, if_pos hfinite]
      cases hvalue : Json.numberOf? (Json.floatText x) with
      | none => simp
      | some value =>
        obtain ⟨y, -, rfl⟩ := Json.exists_float_of_floatText hfinite hvalue
        simp [Json.nullable?, ofJson?]
    case isFalse hinfinite =>
      rw [Json.numberOf?_floatText_of_not_finite hinfinite, reread?]
      simp [Json.nullable?]

end Literal

/-! ## Fields -/

namespace Field

/-- The attributes of a field that hold literals. -/
def literalMembers (field : Field) : List (Option Literal) :=
  [field.default, field.min, field.max, field.encoding, field.length, field.fromEnd]

/-- The literals of a field. -/
def literals (field : Field) : List Literal := field.literalMembers.flatMap Option.toList

theorem forall_literals {field : Field} {p : Literal → Prop} :
    (∀ literal ∈ field.literals, p literal) ↔
      (∀ literal ∈ field.default, p literal) ∧ (∀ literal ∈ field.min, p literal) ∧
        (∀ literal ∈ field.max, p literal) ∧ (∀ literal ∈ field.encoding, p literal) ∧
          (∀ literal ∈ field.length, p literal) ∧ ∀ literal ∈ field.fromEnd, p literal := by
  simp only [literals, literalMembers, List.forall_mem_flatMap, List.forall_mem_cons,
    Option.mem_toList, Option.mem_def, List.not_mem_nil, false_implies, implies_true, and_true]

/-- The value of a flag, which is missing when the flag is not set. -/
def flagValue (value : Bool) : Option Json := if value then some (.bool true) else none

/-- The values of a field that are no literals, in the order of the keys. -/
def plainValues (field : Field) : List (Option Json) :=
  [some (.string field.name), some (.string field.type), flagValue field.optional,
    flagValue field.isArray, field.arraySize.map fun n ↦ .integer n.toNat]

/-- The values of a field in the order of the keys. -/
def values (field : Field) : List (Option Json) :=
  field.plainValues ++ field.literalMembers.map (Option.map Literal.toJson)

theorem flag?_eq (key : String) (value : Bool) :
    Json.flag? key value = Json.member? key (flagValue value) := by
  cases value <;> rfl

theorem toJson_eq (field : Field) : field.toJson = ofRecord keys field.values := by
  simp only [toJson, flag?_eq, ofRecord, recordMembers, keys, values, plainValues, literalMembers,
    List.map_cons, List.map_nil, List.cons_append, List.nil_append, List.zip_cons_cons,
    List.zip_nil_right, List.flatMap_cons, List.flatMap_nil, List.append_assoc, List.append_nil,
    Json.member?]

/-- A field by its values in the order of the keys. -/
def ofValues? : List (Option Json) → Option Field
  | [some name, some type, optional, isArray, arraySize, default, min, max, encoding, length,
      fromEnd] => do
    return {
      name := ← name.text?
      type := ← type.text?
      optional := ← Json.flagOf? optional
      isArray := ← Json.flagOf? isArray
      arraySize := ← Json.nullable? Json.unsigned64? arraySize
      default := ← Json.nullable? Literal.ofJson? default
      min := ← Json.nullable? Literal.ofJson? min
      max := ← Json.nullable? Literal.ofJson? max
      encoding := ← Json.nullable? Literal.ofJson? encoding
      length := ← Json.nullable? Literal.ofJson? length
      fromEnd := ← Json.nullable? Literal.ofJson? fromEnd }
  | _ => none

theorem ofJson?_eq (value : Json) : ofJson? value = (value.record? keys).bind ofValues? := rfl

theorem flagOf?_flagValue (value : Bool) : Json.flagOf? (flagValue value) = some value := by
  cases value <;> rfl

theorem unsigned64?_arraySize (size : Option UInt64) :
    Json.nullable? Json.unsigned64? (size.map fun n ↦ .integer n.toNat) = some size := by
  cases size with
  | none => rfl
  | some n =>
    have hn : (0 : Int) ≤ n.toNat ∧ (n.toNat : Int) < 2 ^ 64 := by
      have hlt := n.toNat_lt
      omega
    simp only [Option.map_some, Json.nullable?, Json.unsigned64?, if_pos hn, Int.toNat_natCast,
      UInt64.ofNat_toNat]

/-- A field is read off its values exactly if its literals are. -/
theorem ofValues?_eq_some_iff {field : Field} {members : List (Option Json)}
    (hlength : members.length = 6) :
    ofValues? (field.plainValues ++ members) = some field ↔
      members.mapM (Json.nullable? Literal.ofJson?) = some field.literalMembers := by
  match members, hlength with
  | [default, min, max, encoding, length, fromEnd], _ =>
    rw [mapM_eq_some_iff]
    cases field
    simp [ofValues?, plainValues, literalMembers, Json.text?, flagOf?_flagValue,
      unsigned64?_arraySize, Option.bind_eq_some_iff]

theorem rereadMember?_plainValues (field : Field) :
    field.plainValues.mapM (rereadMember? depth) = some field.plainValues := by
  have hflag (value : Bool) : rereadMember? depth (flagValue value) = some (flagValue value) := by
    cases value with
    | true => simp [rereadMember?, flagValue, reread?]
    | false => rfl
  have hsize : rereadMember? depth (field.arraySize.map fun n ↦ .integer n.toNat) =
      some (field.arraySize.map fun n ↦ .integer n.toNat) := by
    cases field.arraySize with
    | none => rfl
    | some n =>
      have hlt := n.toNat_lt
      have hread := Json.numberOf?_integerText (n := n.toNat) (by omega) (by omega)
      simp [rereadMember?, reread?, hread]
  rw [mapM_eq_some_self_iff]
  simp only [plainValues, List.forall_mem_cons, hflag, hsize]
  simp [rereadMember?, reread?]

/-- A field is read back exactly if each of its literals is. -/
theorem reread?_bind_iff (field : Field) :
    (reread? (depth + 1) field.toJson).bind ofJson? = some field ↔
      ∀ literal ∈ field.literals, literal.ReadsBack := by
  have hlength : keys.length = field.values.length := rfl
  have hsix {members : List (Option Json)} (h : (field.literalMembers.map
      (Option.map Literal.toJson)).mapM (rereadMember? depth) = some members) :
      members.length = 6 := by
    have hlength := length_of_mapM_eq_some h
    rw [List.length_map] at hlength
    exact hlength.symm
  rw [toJson_eq, Json.reread?_ofRecord_bind ofJson?_eq (by decide) hlength, values,
    List.mapM_append, rereadMember?_plainValues]
  calc
    _ ↔ ∃ members, (field.literalMembers.map (Option.map Literal.toJson)).mapM
          (rereadMember? depth) = some members ∧
        ofValues? (field.plainValues ++ members) = some field := by
      simp [Option.bind_eq_some_iff]
    _ ↔ ∃ members, (field.literalMembers.map (Option.map Literal.toJson)).mapM
          (rereadMember? depth) = some members ∧
        members.mapM (Json.nullable? Literal.ofJson?) = some field.literalMembers :=
      exists_congr fun members ↦ and_congr_right fun h ↦ ofValues?_eq_some_iff (hsix h)
    _ ↔ field.literalMembers.mapM (fun literal ↦
          (rereadMember? depth (literal.map Literal.toJson)).bind
            (Json.nullable? Literal.ofJson?)) = some field.literalMembers := by
      rw [← Option.bind_eq_some_iff, List.mapM_map, mapM_bind_mapM]
      simp only [Function.comp_apply]
    _ ↔ ∀ literal ∈ field.literalMembers, ∀ value ∈ literal, value.ReadsBack := by
      rw [mapM_eq_some_self_iff]
      exact forall₂_congr fun literal _ ↦ Literal.rereadMember?_iff literal
    _ ↔ ∀ literal ∈ field.literals, literal.ReadsBack := by
      simp only [literals, List.mem_flatMap, Option.mem_toList]
      constructor
      · rintro h value ⟨literal, hliteral, hvalue⟩
        exact h literal hliteral value hvalue
      · intro h literal hliteral value hvalue
        exact h value ⟨literal, hliteral, hvalue⟩

/-- No value of a field is an object. -/
theorem ofValues?_of_object_mem {members : List (String × Json)} {values : List (Option Json)}
    (h : some (.object members) ∈ values) : ofValues? values = none := by
  refine Option.eq_none_iff_forall_ne_some.2 fun field hfield ↦ ?_
  unfold ofValues? at hfield
  split at hfield
  case h_2 => cases hfield
  case h_1 =>
    simp only [Option.bind_eq_bind, Option.bind_eq_some_iff] at hfield
    obtain ⟨_, hname, _, htype, _, hoptional, _, hisArray, _, harraySize, _, hdefault, _, hmin, _,
      hmax, _, hencoding, _, hlength, _, hfromEnd, -⟩ := hfield
    simp only [List.mem_cons, List.not_mem_nil, or_false] at h
    rcases h with h | h | h | h | h | h | h | h | h | h | h
    all_goals
      cases h
    · cases hname
    · cases htype
    · cases hoptional
    · cases hisArray
    · cases harraySize
    · cases hdefault
    · cases hmin
    · cases hmax
    · cases hencoding
    · cases hlength
    · cases hfromEnd

theorem ofJson?_array_of_object_mem {items : List Json} {members : List (String × Json)}
    (h : .object members ∈ items) : ofJson? (.array items) = none := by
  rw [ofJson?_eq, Json.record?]
  split
  case isTrue => exact ofValues?_of_object_mem (List.mem_append_left _ (List.mem_map_of_mem h))
  case isFalse => rfl

/-- An array of objects is no field. -/
theorem ofJson?_array_of_objects {items : List Json}
    (h : ∀ item ∈ items, ∃ members, item = .object members) : ofJson? (.array items) = none := by
  cases items with
  | nil => rfl
  | cons item items =>
    obtain ⟨members, rfl⟩ := h item List.mem_cons_self
    exact ofJson?_array_of_object_mem List.mem_cons_self

end Field

/-! ## Lists and sets of fields -/

/-- A list behind a text has what is read for each of its items. -/
theorem Json.reread?_array_bind {α : Type} (toJson : α → Json) (ofJson? : Json → Option α)
    (items : List α) :
    (reread? (depth + 1) (.array (items.map toJson))).bind (Json.list? ofJson?) =
      items.mapM fun item ↦ (reread? depth (toJson item)).bind ofJson? := by
  have hread : (items.map toJson).mapM (reread? depth) =
      items.mapM fun item ↦ reread? depth (toJson item) := List.mapM_map
  rw [reread?, hread, ← mapM_bind_mapM]
  cases items.mapM fun item ↦ reread? depth (toJson item) <;> rfl

theorem Json.exists_object_of_reread? {members : List (String × Json)} {value : Json}
    (h : reread? depth (.object members) = some value) : ∃ others, value = .object others := by
  cases depth with
  | zero =>
    rw [reread?] at h
    cases h
  | succ depth =>
    rw [reread?] at h
    obtain ⟨others, -, rfl⟩ := Option.map_eq_some_iff.1 h
    exact ⟨others, rfl⟩

namespace FieldSet

theorem ofJson?_eq_single_iff {value : Json} {field : Field} :
    ofJson? value = some (.single field) ↔ Field.ofJson? value = some field := by
  unfold ofJson?
  cases Field.ofJson? value <;> simp

theorem ofJson?_eq_many_iff {value : Json} {fields : List Field} :
    ofJson? value = some (.many fields) ↔
      Field.ofJson? value = none ∧ value.list? Field.ofJson? = some fields := by
  unfold ofJson?
  cases Field.ofJson? value <;> simp

/-- A set of fields is read back, as one field or as a list, exactly if each field is. -/
theorem reread?_bind_iff (fields : FieldSet) :
    (reread? (depth + 2) fields.toJson).bind ofJson? = some fields ↔
      ∀ field ∈ fields.toList, ∀ literal ∈ field.literals, literal.ReadsBack := by
  cases fields with
  | single field =>
    rw [toList, List.forall_mem_singleton, ← @Field.reread?_bind_iff (depth + 1)]
    simp only [Option.bind_eq_some_iff, ofJson?_eq_single_iff, toJson]
  | many fields =>
    have hnone {value : Json}
        (h : reread? (depth + 2) (.array (fields.map Field.toJson)) = some value) :
        Field.ofJson? value = none := by
      rw [reread?] at h
      obtain ⟨items, hitems, rfl⟩ := Option.map_eq_some_iff.1 h
      apply Field.ofJson?_array_of_objects
      intro item hitem
      have hmem : some item ∈ (fields.map Field.toJson).map (reread? (depth + 1)) := by
        rw [mapM_eq_some_iff.1 hitems]
        exact List.mem_map_of_mem hitem
      obtain ⟨object, hobject, hread⟩ := List.mem_map.1 hmem
      obtain ⟨field, -, rfl⟩ := List.mem_map.1 hobject
      exact Json.exists_object_of_reread? hread
    calc
      _ ↔ (reread? (depth + 2) (.array (fields.map Field.toJson))).bind
            (Json.list? Field.ofJson?) = some fields := by
        simp only [Option.bind_eq_some_iff, ofJson?_eq_many_iff, toJson]
        exact exists_congr fun value ↦ and_congr_right fun h ↦ and_iff_right (hnone h)
      _ ↔ ∀ field ∈ fields, ∀ literal ∈ field.literals, literal.ReadsBack := by
        rw [Json.reread?_array_bind, mapM_eq_some_self_iff]
        exact forall₂_congr fun field _ ↦ field.reread?_bind_iff

end FieldSet

/-! ## Methods, schemas and plugins -/

namespace Method

/-- The literals of a method. -/
def literals (method : Method) : List Literal :=
  method.fields.toList.flatMap Field.literals ++ method.returns.toList.flatMap Field.literals ++
    method.timeout.toList

/-- The values of a method in the order of the keys. -/
def values (method : Method) : List (Option Json) :=
  [some (.string method.name), some method.fields.toJson, some method.returns.toJson,
    method.timeout.map Literal.toJson]

theorem toJson_eq (method : Method) : method.toJson = ofRecord keys method.values := by
  simp only [toJson, ofRecord, recordMembers, keys, values, List.zip_cons_cons, List.zip_nil_right,
    List.flatMap_cons, List.flatMap_nil, List.append_nil, Json.member?, List.cons_append,
    List.nil_append]

/-- A method by its values in the order of the keys. -/
def ofValues? : List (Option Json) → Option Method
  | [some name, some fields, some returns, timeout] => do
    return {
      name := ← name.text?
      fields := ← FieldSet.ofJson? fields
      returns := ← FieldSet.ofJson? returns
      timeout := ← Json.nullable? Literal.ofJson? timeout }
  | _ => none

theorem ofJson?_eq (value : Json) : ofJson? value = (value.record? keys).bind ofValues? := rfl

/-- A method is read back exactly if each of its literals is. -/
theorem reread?_bind_iff (method : Method) :
    (reread? (depth + 3) method.toJson).bind ofJson? = some method ↔
      ∀ literal ∈ method.literals, literal.ReadsBack := by
  have hlength : keys.length = method.values.length := rfl
  rw [toJson_eq, Json.reread?_ofRecord_bind ofJson?_eq (by decide) hlength]
  calc
    _ ↔ (reread? (depth + 2) method.fields.toJson).bind FieldSet.ofJson? = some method.fields ∧
        (reread? (depth + 2) method.returns.toJson).bind FieldSet.ofJson? = some method.returns ∧
        (rereadMember? (depth + 2) (method.timeout.map Literal.toJson)).bind
          (Json.nullable? Literal.ofJson?) = some method.timeout := by
      cases method
      simp only [values, List.mapM_cons, rereadMember?_some, reread?_string, List.mapM_nil,
        Option.map_some, Option.pure_def, Option.bind_eq_bind, Option.bind_some,
        Option.bind_eq_some_iff, Option.map_eq_some_iff, Option.some.injEq,
        exists_exists_and_eq_and, exists_exists_and_exists_and_eq_and, ↓existsAndEq,
        and_true, ofValues?, Json.text?, mk.injEq, true_and]
      constructor
      · rintro ⟨fields, returns, timeout, ⟨hfields, hreturns, htimeout⟩, h⟩
        exact ⟨⟨fields, hfields, h.1⟩, ⟨returns, hreturns, h.2.1⟩, timeout, htimeout, h.2.2⟩
      · rintro ⟨⟨fields, hfields, hf⟩, ⟨returns, hreturns, hr⟩, timeout, htimeout, ht⟩
        exact ⟨fields, returns, timeout, ⟨hfields, hreturns, htimeout⟩, hf, hr, ht⟩
    _ ↔ ∀ literal ∈ method.literals, literal.ReadsBack := by
      rw [FieldSet.reread?_bind_iff, FieldSet.reread?_bind_iff, Literal.rereadMember?_iff]
      simp only [literals, List.forall_mem_append, List.forall_mem_flatMap, and_assoc,
        Option.mem_toList, Option.mem_def]

end Method

namespace Schema

/-- The values of a schema in the order of the keys. -/
def values (schema : Schema) : List (Option Json) :=
  [some (.string schema.name), some (.array (schema.fields.map Field.toJson))]

/-- A schema by its values in the order of the keys. -/
def ofValues? : List (Option Json) → Option Schema
  | [some name, some fields] => do
    return { name := ← name.text?, fields := ← fields.list? Field.ofJson? }
  | _ => none

theorem ofJson?_eq (value : Json) : ofJson? value = (value.record? keys).bind ofValues? := rfl

theorem reread?_bind_iff (schema : Schema) :
    (reread? (depth + 3) (ofRecord keys schema.values)).bind ofJson? = some schema ↔
      ∀ field ∈ schema.fields, ∀ literal ∈ field.literals, literal.ReadsBack := by
  have hlength : keys.length = schema.values.length := rfl
  rw [Json.reread?_ofRecord_bind ofJson?_eq (by decide) hlength]
  calc
    _ ↔ (reread? (depth + 2) (.array (schema.fields.map Field.toJson))).bind
          (Json.list? Field.ofJson?) = some schema.fields := by
      cases schema
      simp [values, rereadMember?_some, reread?_string, Option.bind_eq_some_iff, ofValues?,
        Json.text?]
    _ ↔ ∀ field ∈ schema.fields, ∀ literal ∈ field.literals, literal.ReadsBack := by
      rw [Json.reread?_array_bind, mapM_eq_some_self_iff]
      exact forall₂_congr fun field _ ↦ field.reread?_bind_iff

end Schema

namespace Plugin

/-- The values of a plugin in the order of the keys. -/
def values (plugin : Plugin) : List (Option Json) :=
  [some (.string plugin.name), some (.string plugin.asName),
    some (.array (plugin.methods.map Method.toJson))]

/-- A plugin by its values in the order of the keys. -/
def ofValues? : List (Option Json) → Option Plugin
  | [some name, some asName, some methods] => do
    return {
      name := ← name.text?
      asName := ← asName.text?
      methods := ← methods.list? Method.ofJson? }
  | _ => none

theorem ofJson?_eq (value : Json) : ofJson? value = (value.record? keys).bind ofValues? := rfl

theorem reread?_bind_iff (plugin : Plugin) :
    (reread? (depth + 5) (ofRecord keys plugin.values)).bind ofJson? = some plugin ↔
      ∀ method ∈ plugin.methods, ∀ literal ∈ method.literals, literal.ReadsBack := by
  have hlength : keys.length = plugin.values.length := rfl
  rw [Json.reread?_ofRecord_bind ofJson?_eq (by decide) hlength]
  calc
    _ ↔ (reread? (depth + 4) (.array (plugin.methods.map Method.toJson))).bind
          (Json.list? Method.ofJson?) = some plugin.methods := by
      cases plugin
      simp [values, rereadMember?_some, reread?_string, Option.bind_eq_some_iff, ofValues?,
        Json.text?]
    _ ↔ ∀ method ∈ plugin.methods, ∀ literal ∈ method.literals, literal.ReadsBack := by
      rw [Json.reread?_array_bind, mapM_eq_some_self_iff]
      exact forall₂_congr fun method _ ↦ method.reread?_bind_iff

end Plugin

/-! ## Definitions -/

namespace Definition

/-- The literals of a definition. -/
def literals : Definition → List Literal
  | schema s => s.fields.flatMap Field.literals
  | plugin p => p.methods.flatMap Method.literals

/-- A record behind a tag. -/
def ofTagged (tag : String) (keys : List String) (values : List (Option Json)) : Json :=
  .object ((tagKey, .string tag) :: recordMembers keys values)

theorem toJson_schema (s : Schema) :
    toJson (.schema s) = ofTagged "schema" Schema.keys s.values := rfl

theorem toJson_plugin (p : Plugin) :
    toJson (.plugin p) = ofTagged "plugin" Plugin.keys p.values := rfl

theorem tagged?_ofTagged (tag : String) {keys : List String} (htag : tagKey ∉ keys)
    (values : List (Option Json)) :
    tagged? (ofTagged tag keys values) = some (tag, ofRecord keys values) := by
  have hne : ∀ member ∈ recordMembers keys values, member.1 ≠ tagKey :=
    fun member hmember htagged ↦ htag (htagged ▸ Json.mem_keys_of_mem_recordMembers hmember)
  have hvalues : Json.valuesOf tagKey ((tagKey, .string tag) :: recordMembers keys values) =
      [.string tag] := by
    have hrest := Json.valuesOf_eq_nil hne
    rw [Json.valuesOf] at hrest
    simp [Json.valuesOf, hrest]
  have hfilter : ((tagKey, .string tag) :: recordMembers keys values).filter
      (fun member ↦ member.1 ≠ tagKey) = recordMembers keys values := by
    rw [List.filter_cons, if_neg (by simp), List.filter_eq_self]
    simpa using hne
  rw [ofTagged, tagged?, hvalues, hfilter]
  rfl

/-- A tag is read back, and what stands behind it is read as a record. -/
theorem reread?_ofTagged_bind (tag : String) {keys : List String} (htag : tagKey ∉ keys)
    {values : List (Option Json)} (hlength : keys.length = values.length) :
    (reread? (depth + 1) (ofTagged tag keys values)).bind tagged? =
      (reread? (depth + 1) (ofRecord keys values)).map (tag, ·) := by
  have hread : reread? (depth + 1) (ofTagged tag keys values) =
      (values.mapM (rereadMember? depth)).map (ofTagged tag keys) := by
    rw [ofTagged, reread?, List.mapM_cons, reread?_string, Json.mapM_recordMembers hlength]
    cases values.mapM (rereadMember? depth) <;> rfl
  rw [hread, Json.reread?_ofRecord hlength]
  cases values.mapM (rereadMember? depth) with
  | none => rfl
  | some values => exact tagged?_ofTagged tag htag values

/-- A definition by its tag and the record behind it. -/
def ofTag? (tag : String) (value : Json) : Option Definition :=
  if tag = "schema" then (Schema.ofJson? value).map .schema
  else if tag = "plugin" then (Plugin.ofJson? value).map .plugin
  else none

theorem reread?_ofTagged_ofJson? (tag : String) {keys : List String} (htag : tagKey ∉ keys)
    {values : List (Option Json)} (hlength : keys.length = values.length) :
    (reread? (depth + 1) (ofTagged tag keys values)).bind ofJson? =
      (reread? (depth + 1) (ofRecord keys values)).bind (ofTag? tag) := by
  calc
    _ = ((reread? (depth + 1) (ofTagged tag keys values)).bind tagged?).bind
          fun tagged ↦ ofTag? tagged.1 tagged.2 := (Option.bind_assoc _ _ _).symm
    _ = (reread? (depth + 1) (ofRecord keys values)).bind (ofTag? tag) := by
      rw [reread?_ofTagged_bind tag htag hlength]
      cases reread? (depth + 1) (ofRecord keys values) <;> rfl

/-- A definition is read back exactly if each of its literals is. -/
theorem reread?_bind_iff (definition : Definition) :
    (reread? (depth + 5) definition.toJson).bind ofJson? = some definition ↔
      ∀ literal ∈ definition.literals, literal.ReadsBack := by
  cases definition with
  | schema s =>
    have hlength : Schema.keys.length = s.values.length := rfl
    have htag : ofTag? "schema" = fun value ↦ (Schema.ofJson? value).map .schema := by
      funext value
      rw [ofTag?, if_pos rfl]
    rw [toJson_schema, reread?_ofTagged_ofJson? "schema" (by decide) hlength, htag,
      literals, List.forall_mem_flatMap, ← @Schema.reread?_bind_iff (depth + 2)]
    simp [Option.bind_eq_some_iff]
  | plugin p =>
    have hlength : Plugin.keys.length = p.values.length := rfl
    have htag : ofTag? "plugin" = fun value ↦ (Plugin.ofJson? value).map .plugin := by
      funext value
      rw [ofTag?, if_neg (by decide), if_pos rfl]
    rw [toJson_plugin, reread?_ofTagged_ofJson? "plugin" (by decide) hlength, htag,
      literals, List.forall_mem_flatMap, ← @Plugin.reread?_bind_iff depth]
    simp [Option.bind_eq_some_iff]

/-- In every layout, a text of definitions is read as them exactly if each of their literals is. -/
theorem ofText?_write_iff (layout : Json.Layout) (definitions : List Definition) :
    ofText? (String.ofList (layout.write 0 (listToJson definitions))) = some definitions ↔
      ∀ literal ∈ definitions.flatMap literals, literal.ReadsBack := by
  have hread : ofText? (String.ofList (layout.write 0 (listToJson definitions))) =
      (reread? 127 (.array (definitions.map toJson))).bind (Json.list? ofJson?) := by
    rw [ofText?, layout.read?_write]
    rfl
  rw [hread, Json.reread?_array_bind, mapM_eq_some_self_iff, List.forall_mem_flatMap]
  exact forall₂_congr fun definition _ ↦ definition.reread?_bind_iff

theorem ofText?_spreadText_iff (definitions : List Definition) :
    ofText? (spreadText definitions) = some definitions ↔
      ∀ literal ∈ definitions.flatMap literals, literal.ReadsBack :=
  ofText?_write_iff Json.spreadLayout definitions

theorem ofText?_compactText_iff (definitions : List Definition) :
    ofText? (compactText definitions) = some definitions ↔
      ∀ literal ∈ definitions.flatMap literals, literal.ReadsBack :=
  ofText?_write_iff Json.compactLayout definitions

end Definition

end SchemaLang
