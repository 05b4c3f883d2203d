import SchemaLang.Proofs.Definition.RoundTrip
import SchemaLang.Proofs.Json.Readable

/-!
# Definitions that were decoded

Decoded definitions have finite numbers only, since the reader of values gives no others. So their
JSON value is decoded to them again, in whichever form they came: each literal by its own variant,
and each set of fields as one field or as a list (`Definition.listOfJson?_listToJson`). Their text
is decoded to them again exactly if each of their binary numbers is read from its own digits
(`Definition.ofText?_reencoded`).
-/

namespace SchemaLang

open Json (Readable ofRecord recordMembers record?_ofRecord)

/-! ## Values in range -/

namespace Json

theorem readable_of_single? {members : List (String × Json)}
    (hmembers : ∀ member ∈ members, Readable member.2) {key : String} {value : Option Json}
    (h : single? members key = some value) : ∀ read ∈ value, Readable read := by
  have hvalues : ∀ read ∈ valuesOf key members, Readable read := by
    intro read hread
    obtain ⟨member, hmember, rfl⟩ := List.mem_map.1 hread
    exact hmembers member (List.mem_filter.1 hmember).1
  unfold single? at h
  split at h
  case h_1 =>
    cases h
    exact fun read hread ↦ nomatch hread
  case h_2 read heq =>
    cases h
    rintro _ ⟨⟩
    exact hvalues read (heq ▸ List.mem_cons_self)
  case h_3 => cases h

/-- The members of a value in range are in range. -/
theorem readable_of_record? {value : Json} (hvalue : Readable value) {keys : List String}
    {values : List (Option Json)} (h : value.record? keys = some values) :
    ∀ member ∈ values, ∀ read ∈ member, Readable read := by
  intro member hmember read hread
  cases hvalue with
  | null | bool | integer | float | string => cases h
  | @object members hmembers =>
    have hmem : some member ∈ keys.map (single? members) := by
      rw [mapM_eq_some_iff.1 h]
      exact List.mem_map_of_mem hmember
    obtain ⟨key, -, hsingle⟩ := List.mem_map.1 hmem
    exact readable_of_single? hmembers hsingle read hread
  | array hitems =>
    rw [record?] at h
    split at h
    case isTrue =>
      cases h
      rcases List.mem_append.1 hmember with hitem | hmissing
      · obtain ⟨item, hmem, rfl⟩ := List.mem_map.1 hitem
        obtain rfl := Option.mem_some_iff.1 hread
        exact hitems _ hmem
      · rw [List.eq_of_mem_replicate hmissing] at hread
        cases hread
    case isFalse => cases h

/-- A record of a value in range is decoded from values in range. -/
theorem exists_readable_values {α : Type} {keys : List String}
    {ofValues? : List (Option Json) → Option α} {value : Json} (hvalue : Readable value)
    {record : α} (h : (value.record? keys).bind ofValues? = some record) :
    ∃ values, (∀ member ∈ values, ∀ read ∈ member, Readable read) ∧
      ofValues? values = some record := by
  obtain ⟨values, hrecord, hvalues⟩ := Option.bind_eq_some_iff.1 h
  exact ⟨values, readable_of_record? hvalue hrecord, hvalues⟩

/-- What holds of everything that is decoded from values in range holds of the items of a list. -/
theorem forall_of_list? {α : Type} {decode? : Json → Option α} {p : α → Prop}
    (hdecode : ∀ {value item}, Readable value → decode? value = some item → p item)
    {value : Json} (hvalue : Readable value) {items : List α}
    (h : value.list? decode? = some items) : ∀ item ∈ items, p item := by
  intro item hitem
  cases hvalue with
  | null | bool | integer | float | string | object => cases h
  | @array values hvalues =>
    have hmem : some item ∈ values.map decode? := by
      rw [mapM_eq_some_iff.1 h]
      exact List.mem_map_of_mem hitem
    obtain ⟨read, hread, hdecoded⟩ := List.mem_map.1 hmem
    exact hdecode (hvalues read hread) hdecoded

theorem list?_map {α : Type} {toJson : α → Json} {ofJson? : Json → Option α} {items : List α}
    (h : ∀ item ∈ items, ofJson? (toJson item) = some item) :
    list? ofJson? (.array (items.map toJson)) = some items := by
  have hitems : (items.map toJson).mapM ofJson? = items.mapM fun item ↦ ofJson? (toJson item) :=
    List.mapM_map
  rw [list?, hitems, mapM_eq_some_self_iff]
  exact h

end Json

/-! ## Literals -/

namespace Literal

/-- A literal that is not a binary number without a notation. -/
def Finite : Literal → Prop
  | .float x => x.isFinite = true
  | _ => True

theorem finite_of_ofJson? {value : Json} {literal : Literal} (hvalue : Readable value)
    (h : ofJson? value = some literal) : literal.Finite := by
  cases hvalue with
  | null | array | object => cases h
  | bool | string =>
    cases h
    trivial
  | float hfinite =>
    cases h
    exact hfinite
  | integer hlow hhigh =>
    have hliteral := Option.some.inj h
    split at hliteral
    · rw [← hliteral]
      trivial
    · rw [← hliteral]
      exact Binary64.isFinite_ofInt (by omega)

/-- A literal is decoded by its own variant. -/
theorem ofJson?_toJson {literal : Literal} (h : literal.Finite) :
    ofJson? literal.toJson = some literal := by
  cases literal with
  | bool | text => rfl
  | integer n => exact ofJson?_integer n
  | float x =>
    have hfinite : x.isFinite = true := h
    rw [toJson, if_pos hfinite]
    rfl

theorem finite_of_nullable? {value : Option Json} (hvalue : ∀ read ∈ value, Readable read)
    {literal : Option Literal} (h : Json.nullable? ofJson? value = some literal) :
    ∀ read ∈ literal, read.Finite := by
  unfold Json.nullable? at h
  split at h
  case h_1 | h_2 =>
    cases h
    exact fun read hread ↦ nomatch hread
  case h_3 read _ =>
    obtain ⟨decoded, hdecoded, rfl⟩ := Option.map_eq_some_iff.1 h
    rintro _ ⟨⟩
    exact finite_of_ofJson? (hvalue read rfl) hdecoded

theorem nullable?_toJson {literal : Option Literal} (h : ∀ value ∈ literal, value.Finite) :
    Json.nullable? ofJson? (literal.map toJson) = some literal := by
  cases literal with
  | none => rfl
  | some literal =>
    have hliteral := ofJson?_toJson (h literal rfl)
    cases hjson : literal.toJson with
    | null =>
      rw [hjson] at hliteral
      cases hliteral
    | bool | integer | float | string | array | object =>
      rw [hjson] at hliteral
      rw [Option.map_some, hjson, Json.nullable?, hliteral]
      · rfl
      · intro hnull
        cases hnull

end Literal

/-! ## Fields -/

namespace Field

theorem finite_of_ofJson? {value : Json} {field : Field} (hvalue : Readable value)
    (h : ofJson? value = some field) : ∀ literal ∈ field.literals, literal.Finite := by
  obtain ⟨values, hreadable, hvalues⟩ := Json.exists_readable_values hvalue (ofJson?_eq value ▸ h)
  unfold ofValues? at hvalues
  split at hvalues
  case h_2 => cases hvalues
  case h_1 =>
    simp only [Option.bind_eq_bind, Option.bind_eq_some_iff, Option.pure_def, Option.some.injEq]
      at hvalues
    obtain ⟨_, -, _, -, _, -, _, -, _, -, default, hdefault, min, hmin, max, hmax, encoding,
      hencoding, length, hlength, fromEnd, hfromEnd, rfl⟩ := hvalues
    simp only [List.forall_mem_cons] at hreadable
    obtain ⟨-, -, -, -, -, hdefault', hmin', hmax', hencoding', hlength', hfromEnd', -⟩ := hreadable
    rw [forall_literals]
    exact ⟨Literal.finite_of_nullable? hdefault' hdefault, Literal.finite_of_nullable? hmin' hmin,
      Literal.finite_of_nullable? hmax' hmax, Literal.finite_of_nullable? hencoding' hencoding,
      Literal.finite_of_nullable? hlength' hlength, Literal.finite_of_nullable? hfromEnd' hfromEnd⟩

theorem ofJson?_toJson {field : Field} (h : ∀ literal ∈ field.literals, literal.Finite) :
    ofJson? field.toJson = some field := by
  have hmembers : ∀ literal ∈ field.literalMembers,
      Json.nullable? Literal.ofJson? (literal.map Literal.toJson) = some literal := by
    intro literal hliteral
    apply Literal.nullable?_toJson
    intro value hvalue
    exact h value (List.mem_flatMap.2 ⟨literal, hliteral, Option.mem_toList.2 hvalue⟩)
  rw [toJson_eq, ofJson?_eq, record?_ofRecord (by decide) rfl, Option.bind_some, values,
    ofValues?_eq_some_iff (List.length_map _), List.mapM_map, mapM_eq_some_self_iff]
  exact hmembers

end Field

namespace FieldSet

theorem finite_of_ofJson? {value : Json} {fields : FieldSet} (hvalue : Readable value)
    (h : ofJson? value = some fields) :
    ∀ field ∈ fields.toList, ∀ literal ∈ field.literals, literal.Finite := by
  cases fields with
  | single field =>
    rw [ofJson?_eq_single_iff] at h
    exact List.forall_mem_singleton.2 (Field.finite_of_ofJson? hvalue h)
  | many fields =>
    rw [ofJson?_eq_many_iff] at h
    exact Json.forall_of_list? Field.finite_of_ofJson? hvalue h.2

/-- One field is decoded as one field, and a list as a list, also if it is empty. -/
theorem ofJson?_toJson {fields : FieldSet}
    (h : ∀ field ∈ fields.toList, ∀ literal ∈ field.literals, literal.Finite) :
    ofJson? fields.toJson = some fields := by
  cases fields with
  | single field =>
    rw [ofJson?_eq_single_iff]
    exact Field.ofJson?_toJson (h field List.mem_cons_self)
  | many fields =>
    have hobjects : ∀ item ∈ fields.map Field.toJson, ∃ members, item = .object members := by
      intro item hitem
      obtain ⟨field, -, rfl⟩ := List.mem_map.1 hitem
      exact ⟨_, rfl⟩
    rw [ofJson?_eq_many_iff]
    exact ⟨Field.ofJson?_array_of_objects hobjects,
      Json.list?_map fun field hfield ↦ Field.ofJson?_toJson (h field hfield)⟩

end FieldSet

/-! ## Methods, schemas and plugins -/

namespace Method

theorem finite_of_ofJson? {value : Json} {method : Method} (hvalue : Readable value)
    (h : ofJson? value = some method) : ∀ literal ∈ method.literals, literal.Finite := by
  obtain ⟨values, hreadable, hvalues⟩ := Json.exists_readable_values hvalue (ofJson?_eq value ▸ h)
  unfold ofValues? at hvalues
  split at hvalues
  case h_2 => cases hvalues
  case h_1 =>
    simp only [Option.bind_eq_bind, Option.bind_eq_some_iff, Option.pure_def, Option.some.injEq]
      at hvalues
    obtain ⟨_, -, fields, hfields, returns, hreturns, timeout, htimeout, rfl⟩ := hvalues
    simp only [List.forall_mem_cons] at hreadable
    obtain ⟨-, hfields', hreturns', htimeout', -⟩ := hreadable
    have hparameters := FieldSet.finite_of_ofJson? (hfields' _ rfl) hfields
    have hresults := FieldSet.finite_of_ofJson? (hreturns' _ rfl) hreturns
    have hlimit := Literal.finite_of_nullable? htimeout' htimeout
    simp only [literals, List.forall_mem_append, List.forall_mem_flatMap, Option.mem_toList]
    exact ⟨⟨hparameters, hresults⟩, hlimit⟩

theorem ofJson?_toJson {method : Method} (h : ∀ literal ∈ method.literals, literal.Finite) :
    ofJson? method.toJson = some method := by
  simp only [literals, List.forall_mem_append, List.forall_mem_flatMap, Option.mem_toList] at h
  obtain ⟨⟨hparameters, hresults⟩, hlimit⟩ := h
  rw [toJson_eq, ofJson?_eq, record?_ofRecord (by decide) rfl, Option.bind_some, values, ofValues?,
    FieldSet.ofJson?_toJson hparameters, FieldSet.ofJson?_toJson hresults,
    Literal.nullable?_toJson hlimit]
  rfl

end Method

namespace Schema

theorem finite_of_ofJson? {value : Json} {schema : Schema} (hvalue : Readable value)
    (h : ofJson? value = some schema) :
    ∀ field ∈ schema.fields, ∀ literal ∈ field.literals, literal.Finite := by
  obtain ⟨values, hreadable, hvalues⟩ := Json.exists_readable_values hvalue (ofJson?_eq value ▸ h)
  unfold ofValues? at hvalues
  split at hvalues
  case h_2 => cases hvalues
  case h_1 =>
    obtain ⟨_, -, hrest⟩ := Option.bind_eq_some_iff.1 hvalues
    obtain ⟨fields, hfields, heq⟩ := Option.bind_eq_some_iff.1 hrest
    cases heq
    simp only [List.forall_mem_cons] at hreadable
    exact Json.forall_of_list? Field.finite_of_ofJson? (hreadable.2.1 _ rfl) hfields

theorem ofJson?_ofRecord {schema : Schema}
    (h : ∀ field ∈ schema.fields, ∀ literal ∈ field.literals, literal.Finite) :
    ofJson? (ofRecord keys schema.values) = some schema := by
  rw [ofJson?_eq, record?_ofRecord (by decide) rfl, Option.bind_some, values, ofValues?,
    Json.list?_map fun field hfield ↦ Field.ofJson?_toJson (h field hfield)]
  rfl

end Schema

namespace Plugin

theorem finite_of_ofJson? {value : Json} {plugin : Plugin} (hvalue : Readable value)
    (h : ofJson? value = some plugin) :
    ∀ method ∈ plugin.methods, ∀ literal ∈ method.literals, literal.Finite := by
  obtain ⟨values, hreadable, hvalues⟩ := Json.exists_readable_values hvalue (ofJson?_eq value ▸ h)
  unfold ofValues? at hvalues
  split at hvalues
  case h_2 => cases hvalues
  case h_1 =>
    obtain ⟨_, -, hnames⟩ := Option.bind_eq_some_iff.1 hvalues
    obtain ⟨_, -, hrest⟩ := Option.bind_eq_some_iff.1 hnames
    obtain ⟨methods, hmethods, heq⟩ := Option.bind_eq_some_iff.1 hrest
    cases heq
    simp only [List.forall_mem_cons] at hreadable
    exact Json.forall_of_list? Method.finite_of_ofJson? (hreadable.2.2.1 _ rfl) hmethods

theorem ofJson?_ofRecord {plugin : Plugin}
    (h : ∀ method ∈ plugin.methods, ∀ literal ∈ method.literals, literal.Finite) :
    ofJson? (ofRecord keys plugin.values) = some plugin := by
  rw [ofJson?_eq, record?_ofRecord (by decide) rfl, Option.bind_some, values, ofValues?,
    Json.list?_map fun method hmethod ↦ Method.ofJson?_toJson (h method hmethod)]
  rfl

end Plugin

/-! ## Definitions -/

namespace Definition

theorem readable_of_tagged? {value rest : Json} {tag : String} (hvalue : Readable value)
    (h : tagged? value = some (tag, rest)) : Readable rest := by
  unfold tagged? at h
  split at h
  case h_1 =>
    split at h
    · cases h
      exact .object fun member hmember ↦ hvalue.members member (List.mem_filter.1 hmember).1
    · cases h
  case h_2 =>
    cases h
    exact .array fun item hitem ↦ hvalue.items item (List.mem_cons_of_mem _ hitem)
  case h_3 => cases h

theorem finite_of_ofJson? {value : Json} {definition : Definition} (hvalue : Readable value)
    (h : ofJson? value = some definition) : ∀ literal ∈ definition.literals, literal.Finite := by
  obtain ⟨tagged, htagged, hdecoded⟩ := Option.bind_eq_some_iff.1 h
  have hrest := readable_of_tagged? hvalue htagged
  dsimp only at hdecoded
  split at hdecoded
  · obtain ⟨schema, hschema, rfl⟩ := Option.map_eq_some_iff.1 hdecoded
    exact List.forall_mem_flatMap.2 (Schema.finite_of_ofJson? hrest hschema)
  split at hdecoded
  · obtain ⟨plugin, hplugin, rfl⟩ := Option.map_eq_some_iff.1 hdecoded
    exact List.forall_mem_flatMap.2 (Plugin.finite_of_ofJson? hrest hplugin)
  · cases hdecoded

theorem ofJson?_toJson {definition : Definition}
    (h : ∀ literal ∈ definition.literals, literal.Finite) :
    ofJson? definition.toJson = some definition := by
  cases definition with
  | schema schema =>
    have hschema := Schema.ofJson?_ofRecord (List.forall_mem_flatMap.1 h)
    rw [toJson_schema, ofJson?, tagged?_ofTagged "schema" (by decide)]
    simp [hschema]
  | plugin plugin =>
    have hplugin := Plugin.ofJson?_ofRecord (List.forall_mem_flatMap.1 h)
    rw [toJson_plugin, ofJson?, tagged?_ofTagged "plugin" (by decide)]
    simp [hplugin]

/-- The JSON value of definitions with finite numbers is decoded to them. -/
theorem listOfJson?_listToJson {definitions : List Definition}
    (h : ∀ literal ∈ definitions.flatMap literals, literal.Finite) :
    listOfJson? (listToJson definitions) = some definitions :=
  Json.list?_map fun definition hdefinition ↦
    ofJson?_toJson (List.forall_mem_flatMap.1 h definition hdefinition)

/-- Definitions that are decoded from a text have finite numbers. -/
theorem finite_of_ofText? {text : String} {definitions : List Definition}
    (h : ofText? text = some definitions) :
    ∀ literal ∈ definitions.flatMap literals, literal.Finite := by
  obtain ⟨value, hread, hdecoded⟩ := Option.bind_eq_some_iff.1 h
  rw [List.forall_mem_flatMap]
  exact Json.forall_of_list? finite_of_ofJson? (Json.readable_of_read? hread) hdecoded

/--
Definitions that are decoded from a text have finite numbers, and their JSON value is decoded to
them again. Their compact and their spread text are decoded to them again exactly if each of their
binary numbers is read from its own digits.
-/
theorem ofText?_reencoded {text : String} {definitions : List Definition}
    (h : ofText? text = some definitions) :
    (∀ x, .float x ∈ definitions.flatMap literals → x.isFinite = true) ∧
    listOfJson? (listToJson definitions) = some definitions ∧
    (ofText? (compactText definitions) = some definitions ↔
      ∀ x, .float x ∈ definitions.flatMap literals →
        Json.numberOf? (Json.floatText x) = some (.float x)) ∧
    (ofText? (spreadText definitions) = some definitions ↔
      ∀ x, .float x ∈ definitions.flatMap literals →
        Json.numberOf? (Json.floatText x) = some (.float x)) := by
  have hfinite := finite_of_ofText? h
  have hfloats : (∀ literal ∈ definitions.flatMap literals, literal.ReadsBack) ↔
      ∀ x, .float x ∈ definitions.flatMap literals →
        Json.numberOf? (Json.floatText x) = some (.float x) := by
    constructor
    · intro hread x hx
      exact (Literal.readsBack_float_iff x).1 (hread _ hx)
    · intro hfloats literal hliteral
      by_contra hlost
      obtain ⟨x, rfl⟩ := Literal.exists_float_of_not_readsBack hlost
      exact hlost ((Literal.readsBack_float_iff x).2 (hfloats x hliteral))
  refine ⟨fun x hx ↦ hfinite _ hx, listOfJson?_listToJson hfinite, ?_, ?_⟩
  · rw [ofText?_compactText_iff, hfloats]
  · rw [ofText?_spreadText_iff, hfloats]

/-- Records in array form, members in another order, an unknown member and a null. -/
theorem ofText?_reencoded_arrays :
    ∃ definitions,
      ofText? ("[[\"schema\",\"A\",[[\"x\",\"T\",false,true,null,1e256]]]," ++
        "\x7b\"methods\":[[\"m\",[\"a\",\"B\"],[],-0]],\"note\":[],\"as\":\"P\"," ++
        "\"name\":\"p\",\"type\":\"plugin\"\x7d]") = some definitions ∧
      ofText? (compactText definitions) = some definitions ∧
      ofText? (spreadText definitions) = some definitions := by
  have htext : ofText? ("[[\"schema\",\"A\",[[\"x\",\"T\",false,true,null,1e256]]]," ++
      "\x7b\"methods\":[[\"m\",[\"a\",\"B\"],[],-0]],\"note\":[],\"as\":\"P\"," ++
      "\"name\":\"p\",\"type\":\"plugin\"\x7d]") =
      some [
        .schema ⟨"A", [
          { name := "x", type := "T", isArray := true
            default := some (.float (.ofRatio false (10 ^ 256) 1)) }]⟩,
        .plugin ⟨"p", "P", [⟨"m", .single { name := "a", type := "B" }, .many [],
          some (.float (.ofRank true 0))⟩]⟩] := by
    decide +kernel
  have hpower : Json.numberOf? (Json.floatText (.ofRatio false (10 ^ 256) 1)) =
      some (.float (.ofRatio false (10 ^ 256) 1)) :=
    (Literal.readsBack_float_iff _).1 (by decide +kernel)
  have hzero : Json.numberOf? (Json.floatText (.ofRank true 0)) = some (.float (.ofRank true 0)) :=
    (Literal.readsBack_float_iff _).1 (by decide +kernel)
  obtain ⟨-, -, hcompact, hspread⟩ := ofText?_reencoded htext
  have hnumbers (x : Binary64) (hx : x = .ofRatio false (10 ^ 256) 1 ∨ x = .ofRank true 0) :
      Json.numberOf? (Json.floatText x) = some (.float x) := by
    rcases hx with hx | hx
    · rw [hx, hpower]
    · rw [hx, hzero]
  refine ⟨_, htext, hcompact.2 fun x hx ↦ hnumbers x ?_, hspread.2 fun x hx ↦ hnumbers x ?_⟩
  all_goals
    simpa [literals, Field.literals, Field.literalMembers, Method.literals, FieldSet.toList]
      using hx

end Definition

end SchemaLang
