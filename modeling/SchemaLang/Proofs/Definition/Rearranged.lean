import SchemaLang.Proofs.Definition.RoundTrip
import SchemaLang.Proofs.Json.Rearranged

/-!
# Definitions in rearranged texts

Neither the order of the members of objects nor members under other keys than those of a definition,
a method or a field matter to the decoder (`Definition.ofText?_rearranged`). A set of fields is read
as one field if it can be, so it must also be seen that a rearranged list of fields is no field:
a field is read from values that are neither arrays nor objects, whose parts so play no role
(`Field.ofJson?_of_alike`). A key that stands twice in a definition, a method or a field leaves
nothing to read.
-/

namespace SchemaLang

open Json (Alike Reordered RecordRearranged ListRearranged RecordRepeats ListRepeats underKeys
  HasText)

variable {depth : Nat} {value other : Json}

/-! ## Values without parts -/

namespace Json

theorem text?_alike (h : Alike value other) : other.text? = value.text? := by
  cases h <;> rfl

theorem unsigned64?_alike (h : Alike value other) : other.unsigned64? = value.unsigned64? := by
  cases h <;> rfl

theorem flagOf?_alike {value other : Option Json} (h : Option.Rel Alike value other) :
    flagOf? other = flagOf? value := by
  cases h with
  | none => rfl
  | some h => cases h <;> rfl

theorem nullable?_alike {α : Type} {decode? : Json → Option α}
    (hdecode : ∀ {value other}, Alike value other → decode? other = decode? value)
    {value other : Option Json} (h : Option.Rel Alike value other) :
    nullable? decode? other = nullable? decode? value := by
  cases h with
  | none => rfl
  | some h =>
    have hsame := hdecode h
    cases h with
    | same => rfl
    | array | object => exact congrArg (Option.map some) hsame

theorem list?_eq_none {α : Type} {decode? : Json → Option α} {items : List Json} {item : Json}
    (hitem : item ∈ items) (hnone : decode? item = none) :
    list? decode? (.array items) = none := by
  refine Option.eq_none_iff_forall_ne_some.2 fun values hvalues ↦ ?_
  obtain ⟨value, hvalue, -⟩ := mem_zip_of_mapM hvalues hitem
  rw [hnone] at hvalue
  cases hvalue

theorem list?_of_repeats {α : Type} {decode? : Json → Option α} {part : Json → Prop}
    (hpart : ∀ item, part item → decode? item = none) (h : ListRepeats part value) :
    value.list? decode? = none := by
  obtain ⟨items, rfl, item, hitem, hrepeats⟩ := h
  exact list?_eq_none hitem (hpart item hrepeats)

theorem list?_of_related {α : Type} {decode? : Json → Option α} {related : Json → Json → Prop}
    (hdecode : ∀ value other item, related value other → decode? value = some item →
      decode? other = some item) (h : ListRearranged related value other) {items : List α}
    (hitems : value.list? decode? = some items) : other.list? decode? = some items := by
  cases h with
  | array hvalues =>
    rw [list?, mapM_eq_some_iff] at hitems ⊢
    induction hvalues generalizing items with
    | nil => exact hitems
    | cons hvalue _ ih =>
      cases items with
      | nil => cases hitems
      | cons item items =>
        rw [List.map_cons, List.map_cons, List.cons.injEq] at hitems ⊢
        exact ⟨hdecode _ _ _ hvalue hitems.1, ih hitems.2⟩

end Json

theorem Literal.ofJson?_alike (h : Alike value other) : ofJson? other = ofJson? value := by
  cases h <;> rfl

/-! ## Fields -/

namespace Field

/-- The same field with rearranged members. -/
def Rearranged (depth : Nat) : Json → Json → Prop :=
  RecordRearranged keys depth fun _ ↦ Reordered

/-- A field in which a known member is given twice. -/
def Repeats : Json → Prop := RecordRepeats keys fun _ _ ↦ False

theorem ofValues?_of_alike {values others : List (Option Json)}
    (h : List.Forall₂ (Option.Rel Alike) values others) {field : Field}
    (hvalues : ofValues? values = some field) : ofValues? others = some field := by
  unfold ofValues? at hvalues
  split at hvalues
  case h_2 => cases hvalues
  case h_1 =>
    rcases h with _ | ⟨hname, _ | ⟨htype, _ | ⟨hoptional, _ | ⟨hisArray, _ | ⟨harraySize, _ |
      ⟨hdefault, _ | ⟨hmin, _ | ⟨hmax, _ | ⟨hencoding, _ | ⟨hlength, _ | ⟨hfromEnd,
        _ | _⟩⟩⟩⟩⟩⟩⟩⟩⟩⟩⟩
    cases hname with | some hname =>
    cases htype with | some htype =>
    rw [ofValues?, Json.text?_alike hname, Json.text?_alike htype, Json.flagOf?_alike hoptional,
      Json.flagOf?_alike hisArray, Json.nullable?_alike Json.unsigned64?_alike harraySize,
      Json.nullable?_alike Literal.ofJson?_alike hdefault,
      Json.nullable?_alike Literal.ofJson?_alike hmin,
      Json.nullable?_alike Literal.ofJson?_alike hmax,
      Json.nullable?_alike Literal.ofJson?_alike hencoding,
      Json.nullable?_alike Literal.ofJson?_alike hlength,
      Json.nullable?_alike Literal.ofJson?_alike hfromEnd]
    exact hvalues

theorem ofValues?_alike {values others : List (Option Json)}
    (h : List.Forall₂ (Option.Rel Alike) values others) :
    ofValues? others = ofValues? values := by
  have hflip : List.Forall₂ (Option.Rel Alike) others values :=
    h.flip.imp fun other value hrel ↦ rel_symm hrel fun _ _ ↦ Alike.symm
  apply Option.ext
  intro field
  exact ⟨ofValues?_of_alike hflip, ofValues?_of_alike h⟩

/-- A field is read from the values under its keys, whatever stands inside of them. -/
theorem ofJson?_of_alike (h : RecordRearranged keys depth (fun _ ↦ Alike) value other) :
    ofJson? other = ofJson? value := by
  rw [ofJson?_eq, ofJson?_eq]
  have hrecord := h.record?_alike
  generalize value.record? keys = values at hrecord ⊢
  generalize other.record? keys = others at hrecord ⊢
  cases hrecord with
  | none => rfl
  | some hvalues => exact ofValues?_alike hvalues

theorem ofJson?_rearranged (h : Rearranged depth value other) : ofJson? other = ofJson? value :=
  ofJson?_of_alike (h.imp fun _ _ _ ↦ Reordered.alike)

theorem ofJson?_reordered (h : Reordered value other) : ofJson? other = ofJson? value := by
  rcases h.eq_or_rearranged keys 0 with rfl | hrearranged
  · rfl
  · exact ofJson?_rearranged hrearranged

theorem list?_rearranged (h : ListRearranged (Rearranged depth) value other) {fields : List Field}
    (hfields : value.list? ofJson? = some fields) : other.list? ofJson? = some fields := by
  refine Json.list?_of_related ?_ h hfields
  exact fun _ _ _ hfield hvalue ↦ (ofJson?_rearranged hfield).trans hvalue

/-- A list of fields is a field after it was rearranged only if it was one before. -/
theorem ofJson?_listRearranged (h : ListRearranged (Rearranged depth) value other) :
    ofJson? other = ofJson? value := by
  cases h with
  | @array items others hitems =>
    have hrecord : RecordRearranged keys 0 (fun _ ↦ Alike) (.array items) (.array others) :=
      .array fun i ↦ rel_imp (rel_getElem?_of_forall₂ hitems i) fun _ _ ↦ RecordRearranged.alike
    exact ofJson?_of_alike hrecord

theorem Rearranged.hasText (h : Rearranged depth value other) (hvalue : HasText depth value) :
    HasText depth other :=
  RecordRearranged.hasText h (fun _ _ _ ↦ Reordered.hasText) hvalue

theorem ofJson?_of_repeats (h : Repeats value) : ofJson? value = none := by
  rw [ofJson?_eq]
  cases hvalues : value.record? keys with
  | none => rfl
  | some values =>
    obtain ⟨_, _, -, hpart⟩ := Json.exists_part_of_record? h hvalues
    exact hpart.elim

theorem exists_object_of_repeats (h : Repeats value) : ∃ members, value = .object members := by
  cases h with
  | key | member => exact ⟨_, rfl⟩
  | item _ _ hpart => exact hpart.elim

end Field

namespace FieldSet

/-- The same field or list of fields, with rearranged members in each. -/
def Rearranged (depth : Nat) (value other : Json) : Prop :=
  Field.Rearranged depth value other ∨ ListRearranged (Field.Rearranged (depth - 1)) value other

/-- A field or a list with a field in which a known member is given twice. -/
def Repeats (value : Json) : Prop := Field.Repeats value ∨ ListRepeats Field.Repeats value

theorem ofJson?_rearranged (h : Rearranged depth value other) {fields : FieldSet}
    (hvalue : ofJson? value = some fields) : ofJson? other = some fields := by
  have hfield : Field.ofJson? other = Field.ofJson? value := by
    rcases h with hone | hmany
    · exact Field.ofJson?_rearranged hone
    · exact Field.ofJson?_listRearranged hmany
  cases fields with
  | single field =>
    rw [ofJson?_eq_single_iff] at hvalue ⊢
    exact hfield.trans hvalue
  | many fields =>
    rw [ofJson?_eq_many_iff] at hvalue ⊢
    refine ⟨hfield.trans hvalue.1, ?_⟩
    rcases h with hone | hmany
    · cases hone with
      | object => cases hvalue.2
      | array hitems =>
        refine Json.list?_of_related ?_ (.array (forall₂_of_rel_getElem? hitems)) hvalue.2
        exact fun _ _ _ hreordered hitem ↦ (Field.ofJson?_reordered hreordered).trans hitem
    · exact Field.list?_rearranged hmany hvalue.2

theorem Rearranged.hasText (h : Rearranged depth value other) (hvalue : HasText depth value) :
    HasText depth other := by
  rcases h with hone | hmany
  · exact Field.Rearranged.hasText hone hvalue
  · exact hmany.hasText (fun _ _ ↦ Field.Rearranged.hasText) hvalue

theorem ofJson?_of_repeats (h : Repeats value) : ofJson? value = none := by
  rcases h with hone | hmany
  · obtain ⟨members, rfl⟩ := Field.exists_object_of_repeats hone
    rw [ofJson?, Field.ofJson?_of_repeats hone]
    rfl
  · have hlist := Json.list?_of_repeats (fun _ ↦ Field.ofJson?_of_repeats) hmany
    obtain ⟨items, rfl, item, hitem, hrepeats⟩ := hmany
    obtain ⟨members, rfl⟩ := Field.exists_object_of_repeats hrepeats
    rw [ofJson?, Field.ofJson?_array_of_object_mem hitem, hlist]
    rfl

end FieldSet

/-! ## Methods -/

namespace Method

/-- The keys under which the sets of fields of a method stand. -/
def partKeys : List String := ["fields", "returns"]

/-- The same method with rearranged members, also in its fields. -/
def Rearranged (depth : Nat) : Json → Json → Prop :=
  RecordRearranged keys depth (underKeys partKeys (FieldSet.Rearranged (depth - 1)))

/-- A method in which a known member is given twice, or in a field of which one is. -/
def Repeats : Json → Prop :=
  RecordRepeats keys fun key value ↦ key ∈ partKeys ∧ FieldSet.Repeats value

theorem ofValues?_eq_some {values : List (Option Json)} {method : Method}
    (h : ofValues? values = some method) : ∃ name fields returns timeout,
      values = [some name, some fields, some returns, timeout] ∧
      name.text? = some method.name ∧ FieldSet.ofJson? fields = some method.fields ∧
      FieldSet.ofJson? returns = some method.returns ∧
      Json.nullable? Literal.ofJson? timeout = some method.timeout := by
  unfold ofValues? at h
  split at h
  case h_2 => cases h
  case h_1 name fields returns timeout =>
    obtain ⟨_, hname, hrest⟩ := Option.bind_eq_some_iff.1 h
    obtain ⟨_, hfields, hrest⟩ := Option.bind_eq_some_iff.1 hrest
    obtain ⟨_, hreturns, hrest⟩ := Option.bind_eq_some_iff.1 hrest
    obtain ⟨_, htimeout, heq⟩ := Option.bind_eq_some_iff.1 hrest
    cases heq
    exact ⟨name, fields, returns, timeout, rfl, hname, hfields, hreturns, htimeout⟩

theorem ofJson?_rearranged (h : Rearranged depth value other) {method : Method}
    (hvalue : ofJson? value = some method) : ofJson? other = some method := by
  rw [ofJson?_eq] at hvalue ⊢
  have hrecord := Json.record?_rearranged h
  obtain ⟨values, hvalues, hmethod⟩ := Option.bind_eq_some_iff.1 hvalue
  obtain ⟨name, fields, returns, timeout, rfl, hname, hfields, hreturns, htimeout⟩ :=
    ofValues?_eq_some hmethod
  rw [hvalues] at hrecord
  generalize other.record? keys = others at hrecord ⊢
  cases hrecord with | some hparts =>
  obtain _ | ⟨⟨hname'⟩, _ | ⟨⟨hfields'⟩, _ | ⟨⟨hreturns'⟩, _ | ⟨htimeout', _ | _⟩⟩⟩⟩ := hparts
  dsimp only at hname' hfields' hreturns' htimeout'
  replace hname' := (Json.reordered_of_underKeys (by decide) hname').alike
  replace hfields' := Json.part_of_underKeys (by decide) hfields'
  replace hreturns' := Json.part_of_underKeys (by decide) hreturns'
  replace htimeout' := rel_imp htimeout' fun _ _ h ↦
    (Json.reordered_of_underKeys (by decide) h).alike
  rw [Option.bind_some, ofValues?, Json.text?_alike hname', hname,
    FieldSet.ofJson?_rearranged hfields' hfields, FieldSet.ofJson?_rearranged hreturns' hreturns,
    Json.nullable?_alike Literal.ofJson?_alike htimeout', htimeout]
  rfl

theorem list?_rearranged (h : ListRearranged (Rearranged depth) value other)
    {methods : List Method} (hmethods : value.list? ofJson? = some methods) :
    other.list? ofJson? = some methods := by
  refine Json.list?_of_related ?_ h hmethods
  exact fun _ _ _ hmethod hvalue ↦ ofJson?_rearranged hmethod hvalue

theorem Rearranged.hasText (h : Rearranged depth value other) (hvalue : HasText depth value) :
    HasText depth other :=
  RecordRearranged.hasText h
    (Json.hasText_of_underKeys fun _ _ ↦ FieldSet.Rearranged.hasText) hvalue

theorem ofJson?_of_repeats (h : Repeats value) : ofJson? value = none := by
  refine Option.eq_none_iff_forall_ne_some.2 fun method hmethod ↦ ?_
  obtain ⟨values, hvalues, hmethod⟩ := Option.bind_eq_some_iff.1 (ofJson?_eq value ▸ hmethod)
  obtain ⟨name, fields, returns, timeout, rfl, -, hfields, hreturns, -⟩ :=
    ofValues?_eq_some hmethod
  obtain ⟨part, hmem, hpart⟩ := Json.exists_mem_partsUnder h hvalues
  have hnone := FieldSet.ofJson?_of_repeats hpart
  have hparts : part = fields ∨ part = returns := List.mem_pair.1 hmem
  rcases hparts with rfl | rfl
  · rw [hnone] at hfields
    cases hfields
  · rw [hnone] at hreturns
    cases hreturns

end Method

/-! ## Schemas and plugins -/

namespace Schema

/-- The key under which the fields of a schema stand. -/
def partKeys : List String := ["fields"]

theorem ofValues?_eq_some {values : List (Option Json)} {schema : Schema}
    (h : ofValues? values = some schema) : ∃ name fields, values = [some name, some fields] ∧
      name.text? = some schema.name ∧ fields.list? Field.ofJson? = some schema.fields := by
  unfold ofValues? at h
  split at h
  case h_2 => cases h
  case h_1 name fields =>
    obtain ⟨_, hname, hrest⟩ := Option.bind_eq_some_iff.1 h
    obtain ⟨_, hfields, heq⟩ := Option.bind_eq_some_iff.1 hrest
    cases heq
    exact ⟨name, fields, rfl, hname, hfields⟩

theorem ofValues?_rearranged {values others : List (Option Json)}
    (h : List.Forall₂ (fun entry other ↦ Option.Rel
      (underKeys partKeys (ListRearranged (Field.Rearranged depth)) entry.1) entry.2 other)
      (keys.zip values) others) {schema : Schema} (hvalues : ofValues? values = some schema) :
    ofValues? others = some schema := by
  obtain ⟨name, fields, rfl, hname, hfields⟩ := ofValues?_eq_some hvalues
  obtain _ | ⟨⟨hname'⟩, _ | ⟨⟨hfields'⟩, _ | _⟩⟩ := h
  dsimp only at hname' hfields'
  replace hname' := (Json.reordered_of_underKeys (by decide) hname').alike
  replace hfields' := Json.part_of_underKeys (by decide) hfields'
  rw [ofValues?, Json.text?_alike hname', hname, Field.list?_rearranged hfields' hfields]
  rfl

/-- A schema in which a known member is given twice, or in a field of which one is. -/
def Repeats : Json → Prop :=
  RecordRepeats keys fun key value ↦ key ∈ partKeys ∧ ListRepeats Field.Repeats value

theorem ofJson?_of_repeats (h : Repeats value) : ofJson? value = none := by
  refine Option.eq_none_iff_forall_ne_some.2 fun schema hschema ↦ ?_
  obtain ⟨values, hvalues, hschema⟩ := Option.bind_eq_some_iff.1 (ofJson?_eq value ▸ hschema)
  obtain ⟨name, fields, rfl, -, hfields⟩ := ofValues?_eq_some hschema
  obtain ⟨part, hmem, hpart⟩ := Json.exists_mem_partsUnder h hvalues
  obtain rfl : part = fields := List.mem_singleton.1 hmem
  rw [Json.list?_of_repeats (fun _ ↦ Field.ofJson?_of_repeats) hpart] at hfields
  cases hfields

end Schema

namespace Plugin

/-- The key under which the methods of a plugin stand. -/
def partKeys : List String := ["methods"]

theorem ofValues?_eq_some {values : List (Option Json)} {plugin : Plugin}
    (h : ofValues? values = some plugin) : ∃ name asName methods,
      values = [some name, some asName, some methods] ∧ name.text? = some plugin.name ∧
      asName.text? = some plugin.asName ∧
      methods.list? Method.ofJson? = some plugin.methods := by
  unfold ofValues? at h
  split at h
  case h_2 => cases h
  case h_1 name asName methods =>
    obtain ⟨_, hname, hrest⟩ := Option.bind_eq_some_iff.1 h
    obtain ⟨_, hasName, hrest⟩ := Option.bind_eq_some_iff.1 hrest
    obtain ⟨_, hmethods, heq⟩ := Option.bind_eq_some_iff.1 hrest
    cases heq
    exact ⟨name, asName, methods, rfl, hname, hasName, hmethods⟩

theorem ofValues?_rearranged {values others : List (Option Json)}
    (h : List.Forall₂ (fun entry other ↦ Option.Rel
      (underKeys partKeys (ListRearranged (Method.Rearranged depth)) entry.1) entry.2 other)
      (keys.zip values) others) {plugin : Plugin} (hvalues : ofValues? values = some plugin) :
    ofValues? others = some plugin := by
  obtain ⟨name, asName, methods, rfl, hname, hasName, hmethods⟩ := ofValues?_eq_some hvalues
  obtain _ | ⟨⟨hname'⟩, _ | ⟨⟨hasName'⟩, _ | ⟨⟨hmethods'⟩, _ | _⟩⟩⟩ := h
  dsimp only at hname' hasName' hmethods'
  replace hname' := (Json.reordered_of_underKeys (by decide) hname').alike
  replace hasName' := (Json.reordered_of_underKeys (by decide) hasName').alike
  replace hmethods' := Json.part_of_underKeys (by decide) hmethods'
  rw [ofValues?, Json.text?_alike hname', hname, Json.text?_alike hasName', hasName,
    Method.list?_rearranged hmethods' hmethods]
  rfl

/-- A plugin in which a known member is given twice, or in a method of which one is. -/
def Repeats : Json → Prop :=
  RecordRepeats keys fun key value ↦ key ∈ partKeys ∧ ListRepeats Method.Repeats value

theorem ofJson?_of_repeats (h : Repeats value) : ofJson? value = none := by
  refine Option.eq_none_iff_forall_ne_some.2 fun plugin hplugin ↦ ?_
  obtain ⟨values, hvalues, hplugin⟩ := Option.bind_eq_some_iff.1 (ofJson?_eq value ▸ hplugin)
  obtain ⟨name, asName, methods, rfl, -, -, hmethods⟩ := ofValues?_eq_some hplugin
  obtain ⟨part, hmem, hpart⟩ := Json.exists_mem_partsUnder h hvalues
  obtain rfl : part = methods := List.mem_singleton.1 hmem
  rw [Json.list?_of_repeats (fun _ ↦ Method.ofJson?_of_repeats) hpart] at hmethods
  cases hmethods

end Plugin

/-! ## Definitions -/

namespace Definition

/-- The same definition with rearranged members, also in its fields or methods. -/
inductive Rearranged (depth : Nat) (value other : Json) : Prop
  | schema {rest : Json} (htag : tagged? value = some ("schema", rest))
      (h : RecordRearranged (tagKey :: Schema.keys) depth
        (underKeys Schema.partKeys (ListRearranged (Field.Rearranged (depth - 2)))) value other)
  | plugin {rest : Json} (htag : tagged? value = some ("plugin", rest))
      (h : RecordRearranged (tagKey :: Plugin.keys) depth
        (underKeys Plugin.partKeys (ListRearranged (Method.Rearranged (depth - 2)))) value other)

/-- A definition in which a known member is given twice, or in a method or a field of it. -/
inductive Repeats : Json → Prop
  | tag {members : List (String × Json)} (h : 1 < (Json.valuesOf tagKey members).length) :
      Repeats (.object members)
  | schema {value rest : Json} (htag : tagged? value = some ("schema", rest))
      (h : Schema.Repeats rest) : Repeats value
  | plugin {value rest : Json} (htag : tagged? value = some ("plugin", rest))
      (h : Plugin.Repeats rest) : Repeats value

/-- A tagged record is a record under the tag and its keys. -/
theorem record?_of_tagged? {keys : List String} (hkeys : tagKey ∉ keys) {tag : String}
    {rest : Json} (h : tagged? value = some (tag, rest)) :
    value.record? (tagKey :: keys) = (rest.record? keys).map (some (.string tag) :: ·) := by
  unfold tagged? at h
  split at h
  case h_1 members =>
    split at h
    case h_2 => cases h
    case h_1 only hvalues =>
      cases h
      have htag : Json.single? members tagKey = some (some (.string tag)) := by
        rw [Json.single?, hvalues]
      have hrest : keys.mapM (Json.single? (members.filter fun member ↦ member.1 ≠ tagKey)) =
          keys.mapM (Json.single? members) := by
        refine mapM_congr fun key hkey ↦ ?_
        have hne : key ≠ tagKey := fun heq ↦ hkeys (heq ▸ hkey)
        rw [Json.single?, Json.valuesOf_filter_of_ne hne, Json.single?]
      rw [Json.record?, Json.record?, List.mapM_cons, htag, hrest]
      cases keys.mapM (Json.single? members) <;> rfl
  case h_2 items =>
    cases h
    simp only [Json.record?, List.length_cons, Nat.add_le_add_iff_right, Nat.add_sub_add_right]
    split <;> rfl
  case h_3 => cases h

/-- A record under a tag and other keys is tagged. -/
theorem exists_tagged? {keys : List String} {tag : String} {values : List (Option Json)}
    (h : value.record? (tagKey :: keys) = some (some (.string tag) :: values)) :
    ∃ rest, tagged? value = some (tag, rest) := by
  cases value with
  | null | bool | integer | float | string => cases h
  | object members =>
    rw [Json.record?, List.mapM_cons] at h
    obtain ⟨found, hfound, hrest⟩ := Option.bind_eq_some_iff.1 h
    obtain ⟨others, -, heq⟩ := Option.bind_eq_some_iff.1 hrest
    cases heq
    unfold Json.single? at hfound
    split at hfound
    case h_1 | h_3 => cases hfound
    case h_2 only hvalues =>
      cases hfound
      exact ⟨_, by rw [tagged?, hvalues]⟩
  | array items =>
    rw [Json.record?] at h
    split at h
    case isFalse => cases h
    case isTrue =>
      cases items with
      | nil => cases h
      | cons item items =>
        cases h
        exact ⟨_, rfl⟩

/-- A rearranged record with a tag has the tag, and rearranged values under the other keys. -/
theorem exists_of_rearranged {keys : List String} (hkeys : tagKey ∉ keys) {partKeys : List String}
    (hparts : tagKey ∉ partKeys) {part : Json → Json → Prop}
    (h : RecordRearranged (tagKey :: keys) depth (underKeys partKeys part) value other)
    {tag : String} {rest : Json} (htag : tagged? value = some (tag, rest))
    {values : List (Option Json)} (hvalues : rest.record? keys = some values) :
    ∃ found others, tagged? other = some (tag, found) ∧ found.record? keys = some others ∧
      List.Forall₂ (fun entry other ↦ Option.Rel (underKeys partKeys part entry.1) entry.2 other)
        (keys.zip values) others := by
  have hrecord := Json.record?_rearranged h
  rw [record?_of_tagged? hkeys htag, hvalues, Option.map_some] at hrecord
  cases hfound : other.record? (tagKey :: keys) with
  | none =>
    rw [hfound] at hrecord
    cases hrecord
  | some found =>
    rw [hfound] at hrecord
    obtain ⟨_ | ⟨⟨hsame⟩, hothers⟩⟩ := hrecord
    dsimp only at hsame
    cases Json.reordered_of_underKeys hparts hsame
    obtain ⟨rest', htag'⟩ := exists_tagged? hfound
    rw [record?_of_tagged? hkeys htag'] at hfound
    obtain ⟨others, hothers', heq⟩ := Option.map_eq_some_iff.1 hfound
    cases heq
    exact ⟨rest', _, htag', hothers', hothers⟩

theorem ofJson?_schema {rest : Json} (h : tagged? value = some ("schema", rest)) :
    ofJson? value = (Schema.ofJson? rest).map .schema := by
  rw [ofJson?, h]
  rfl

theorem ofJson?_plugin {rest : Json} (h : tagged? value = some ("plugin", rest)) :
    ofJson? value = (Plugin.ofJson? rest).map .plugin := by
  rw [ofJson?, h]
  rfl

theorem ofJson?_rearranged (h : Rearranged depth value other) {definition : Definition}
    (hvalue : ofJson? value = some definition) : ofJson? other = some definition := by
  cases h with
  | schema htag hrecord =>
    rw [ofJson?_schema htag] at hvalue
    obtain ⟨schema, hschema, rfl⟩ := Option.map_eq_some_iff.1 hvalue
    obtain ⟨values, hvalues, hschema⟩ := Option.bind_eq_some_iff.1 hschema
    obtain ⟨found, others, hfound, hothers, hparts⟩ :=
      exists_of_rearranged (by decide) (by decide) hrecord htag hvalues
    rw [ofJson?_schema hfound, Schema.ofJson?_eq, hothers, Option.bind_some,
      Schema.ofValues?_rearranged hparts hschema]
    rfl
  | plugin htag hrecord =>
    rw [ofJson?_plugin htag] at hvalue
    obtain ⟨plugin, hplugin, rfl⟩ := Option.map_eq_some_iff.1 hvalue
    obtain ⟨values, hvalues, hplugin⟩ := Option.bind_eq_some_iff.1 hplugin
    obtain ⟨found, others, hfound, hothers, hparts⟩ :=
      exists_of_rearranged (by decide) (by decide) hrecord htag hvalues
    rw [ofJson?_plugin hfound, Plugin.ofJson?_eq, hothers, Option.bind_some,
      Plugin.ofValues?_rearranged hparts hplugin]
    rfl

theorem Rearranged.hasText (h : Rearranged depth value other) (hvalue : HasText depth value) :
    HasText depth other := by
  cases h with
  | schema _ hrecord =>
    refine hrecord.hasText (Json.hasText_of_underKeys fun value other hfields ↦ ?_) hvalue
    exact hfields.hasText fun _ _ ↦ Field.Rearranged.hasText
  | plugin _ hrecord =>
    refine hrecord.hasText (Json.hasText_of_underKeys fun value other hmethods ↦ ?_) hvalue
    exact hmethods.hasText fun _ _ ↦ Method.Rearranged.hasText

theorem ofJson?_of_repeats (h : Repeats value) : ofJson? value = none := by
  cases h with
  | @tag members h =>
    have hnone : tagged? (.object members) = none := by
      rw [tagged?]
      split
      case h_1 hvalues => simp [hvalues] at h
      case h_2 => rfl
    rw [ofJson?, hnone]
    rfl
  | schema htag h => rw [ofJson?_schema htag, Schema.ofJson?_of_repeats h, Option.map_none]
  | plugin htag h => rw [ofJson?_plugin htag, Plugin.ofJson?_of_repeats h, Option.map_none]

/--
Definitions that are decoded from a text are decoded from every text that has the members of objects
in another order, and members under other keys than those of the definition, the method or the
field they stand in, of values that have a text there. There is such a text for each such value. No
definitions are decoded from a text with a definition, a method or a field in which a known member
is given twice.
-/
theorem ofText?_rearranged {text : String} {definitions : List Definition}
    (h : ofText? text = some definitions) :
    ∃ value, Json.IsTextFor text value ∧
      (∀ other, ListRearranged (Rearranged (Json.maxDepth - 1)) value other →
        (∃ otherText, Json.IsTextFor otherText other) ∧
        ∀ otherText, Json.IsTextFor otherText other → ofText? otherText = some definitions) ∧
      (∀ other, ListRepeats Repeats other →
        ∀ otherText, Json.IsTextFor otherText other → ofText? otherText = none) := by
  obtain ⟨value, hread, hdecoded⟩ := Option.bind_eq_some_iff.1 h
  have htext := Json.read?_eq_some_iff.1 hread
  refine ⟨value, htext, fun other hrearranged ↦ ⟨?_, fun otherText hother ↦ ?_⟩,
    fun other hrepeats otherText hother ↦ ?_⟩
  · rw [Json.exists_isTextFor_iff]
    refine hrearranged.hasText (fun _ _ ↦ Rearranged.hasText) ?_
    exact Json.exists_isTextFor_iff.1 ⟨text, htext⟩
  · rw [ofText?, Json.read?_eq_some_iff.2 hother]
    refine Json.list?_of_related ?_ hrearranged hdecoded
    exact fun _ _ _ hdefinition hvalue ↦ ofJson?_rearranged hdefinition hvalue
  · rw [ofText?, Json.read?_eq_some_iff.2 hother]
    exact Json.list?_of_repeats (fun _ ↦ ofJson?_of_repeats) hrepeats

/--
The members of a schema and its field from the last to the first, with the methods of a plugin and a
note among them, and a field with its name given twice.
-/
theorem ofText?_rearranged_schema :
    ofText? ("[\x7b\"methods\":[],\"fields\":[\x7b\"note\":null,\"type\":\"T\"," ++
      "\"name\":\"x\"\x7d],\"name\":\"A\",\"type\":\"schema\"\x7d]") =
      some [.schema ⟨"A", [{ name := "x", type := "T" }]⟩] ∧
    ofText? ("[\x7b\"type\":\"schema\",\"name\":\"A\",\"fields\":[\x7b\"name\":\"x\"," ++
      "\"type\":\"T\",\"name\":\"x\"\x7d]\x7d]") = none := by
  have htext : ofText? ("[\x7b\"type\":\"schema\",\"name\":\"A\",\"fields\":[\x7b" ++
      "\"name\":\"x\",\"type\":\"T\"\x7d]\x7d]") =
      some [.schema ⟨"A", [{ name := "x", type := "T" }]⟩] := by
    decide +kernel
  have hplain : Json.IsTextFor ("[\x7b\"type\":\"schema\",\"name\":\"A\",\"fields\":[\x7b" ++
      "\"name\":\"x\",\"type\":\"T\"\x7d]\x7d]")
      (.array [.object [("type", .string "schema"), ("name", .string "A"),
        ("fields", .array [.object [("name", .string "x"), ("type", .string "T")]])]]) :=
    Json.isTextFor_of_compact (by decide +kernel) rfl
  obtain ⟨value, hvalue, hrearranged, hrepeats⟩ := ofText?_rearranged htext
  obtain rfl := Option.some.inj
    ((Json.read?_eq_some_iff.2 hvalue).symm.trans (Json.read?_eq_some_iff.2 hplain))
  have hfield : Field.Rearranged (Json.maxDepth - 3)
      (.object [("name", .string "x"), ("type", .string "T")])
      (.object [("note", .null), ("type", .string "T"), ("name", .string "x")]) :=
    @RecordRearranged.object _ _ _ _ [("name", .string "x"), ("type", .string "T")]
      [("note", .null)] _ (.cons ⟨rfl, .same _⟩ (.cons ⟨rfl, .same _⟩ .nil))
      (List.forall_mem_singleton.2 ⟨by decide, _, .null _⟩) (List.reverse_perm _).symm
  have hschema : Rearranged (Json.maxDepth - 1)
      (.object [("type", .string "schema"), ("name", .string "A"),
        ("fields", .array [.object [("name", .string "x"), ("type", .string "T")]])])
      (.object [("methods", .array []), ("fields", .array [.object [("note", .null),
        ("type", .string "T"), ("name", .string "x")]]), ("name", .string "A"),
        ("type", .string "schema")]) :=
    .schema rfl (@RecordRearranged.object _ _ _ _ [("type", .string "schema"),
      ("name", .string "A"), ("fields", .array [.object [("note", .null), ("type", .string "T"),
        ("name", .string "x")]])] [("methods", .array [])] _
      (.cons ⟨rfl, .same _⟩ (.cons ⟨rfl, .same _⟩
        (.cons ⟨rfl, .array (.cons hfield .nil)⟩ .nil)))
      (List.forall_mem_singleton.2 ⟨by decide, _, .emptyArray _ (List.forall_mem_nil _)⟩)
      (List.reverse_perm _).symm)
  have hname : Field.Repeats
      (.object [("name", .string "x"), ("type", .string "T"), ("name", .string "x")]) :=
    @RecordRepeats.key _ _ _ "name" (by decide) (by decide)
  have htwice : Repeats (.object [("type", .string "schema"), ("name", .string "A"),
      ("fields", .array [.object [("name", .string "x"), ("type", .string "T"),
        ("name", .string "x")]])]) :=
    @Repeats.schema _ (.object [("name", .string "A"), ("fields", .array [.object
      [("name", .string "x"), ("type", .string "T"), ("name", .string "x")]])]) rfl
      (.member (by decide) (List.mem_cons_of_mem _ List.mem_cons_self)
        ⟨by decide, _, rfl, _, List.mem_singleton_self _, hname⟩)
  constructor
  · exact (hrearranged _ (.array (.cons hschema .nil))).2 _
      (Json.isTextFor_of_compact (by decide +kernel) rfl)
  · exact hrepeats _ ⟨_, rfl, _, List.mem_singleton_self _, htwice⟩ _
      (Json.isTextFor_of_compact (by decide +kernel) rfl)

end Definition

end SchemaLang
