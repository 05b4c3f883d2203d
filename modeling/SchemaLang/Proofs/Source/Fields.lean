import SchemaLang.Proofs.Source.FieldPlace
import SchemaLang.Proofs.Source.Words

/-!
# The fields of the definitions of a source

A field of a definition is written as a field in a block, or it is the one field of a bare type
(`UnitPhrase.exists_of_mem_fields`), and every field in a block is a field of a definition
(`UnitPhrase.mem_fields_of_field?`). Whether it is an array its brackets tell, and its options tell
nothing else but attributes. The names and the types of all fields are words.
-/

namespace SchemaLang

open Phrase

/--
The fields of a definition: those of a schema, or the parameters and the results of the methods of
a plugin.
-/
def Definition.fields : Definition → List Field
  | schema s => s.fields
  | plugin p => p.methods.flatMap fun method ↦ method.fields.toList ++ method.returns.toList

/-! ## Fields and methods of nodes -/

/-- Options change neither the name nor the type of a field, and make it no array. -/
theorem Field.foldl_withOption_keeps (options : List OptionNode) (field : Field) :
    (options.foldl withOption field).name = field.name ∧
      (options.foldl withOption field).type = field.type ∧
      (options.foldl withOption field).optional = field.optional ∧
      (options.foldl withOption field).isArray = field.isArray := by
  induction options generalizing field with
  | nil => exact ⟨rfl, rfl, rfl, rfl⟩
  | cons entry options ih =>
    have hentry : (field.withOption entry).name = field.name ∧
        (field.withOption entry).type = field.type ∧
        (field.withOption entry).optional = field.optional ∧
        (field.withOption entry).isArray = field.isArray := by
      unfold withOption withOption?
      split
      case h_6 => cases entry.arraySize? <;> exact ⟨rfl, rfl, rfl, rfl⟩
      all_goals exact ⟨rfl, rfl, rfl, rfl⟩
    obtain ⟨hname, htype, hoptional, harray⟩ := ih (field.withOption entry)
    rw [List.foldl_cons, hname, htype, hoptional, harray]
    exact hentry

/-- A field has the name and the type that are written, and is an array if it has brackets. -/
theorem Field.ofNode_parts (node : FieldNode) :
    (ofNode node).name = node.name.text ∧ (ofNode node).type = node.type.text ∧
      (ofNode node).optional = node.optional.isSome ∧
      (ofNode node).isArray = node.array.isSome := by
  obtain ⟨hname, htype, hoptional, harray⟩ := foldl_withOption_keeps (node.options.getD [])
    { name := node.name.text, type := node.type.text, optional := node.optional.isSome }
  rw [ofNode_eq]
  obtain harrayNode | ⟨_ | _⟩ := node.array
  · exact ⟨hname, htype, hoptional, harray⟩
  all_goals exact ⟨hname, htype, hoptional, rfl⟩

/-- Options of a method change neither its name nor its parameters and results. -/
theorem Method.foldl_withOption_keeps (options : List OptionNode) (method : Method) :
    (options.foldl withOption method).name = method.name ∧
      (options.foldl withOption method).fields = method.fields ∧
      (options.foldl withOption method).returns = method.returns := by
  induction options generalizing method with
  | nil => exact ⟨rfl, rfl, rfl⟩
  | cons entry options ih =>
    have hentry : (method.withOption entry).name = method.name ∧
        (method.withOption entry).fields = method.fields ∧
        (method.withOption entry).returns = method.returns := by
      unfold withOption withOption?
      split <;> exact ⟨rfl, rfl, rfl⟩
    obtain ⟨hname, hfields, hreturns⟩ := ih (method.withOption entry)
    rw [List.foldl_cons, hname, hfields, hreturns]
    exact hentry

/-! ## Fields of definitions and fields of a unit -/

variable {unit : UnitPhrase}

/-- The tokens of a method of a unit are tokens of the unit. -/
theorem UnitPhrase.tokens_method?_subset {item number : Nat} {method : MethodPhrase}
    (h : unit.method? item number = some method) : tokens method ⊆ tokens unit := by
  obtain ⟨p, hitem, hnumber⟩ := Option.bind_eq_some_iff.1 h
  cases p with
  | schema p => cases hnumber
  | plugin p =>
    intro token htoken
    have hmethods : token ∈ tokens p.methods :=
      List.mem_flatMap.2 ⟨method, List.mem_of_getElem? hnumber, htoken⟩
    have hplugin : token ∈ tokens (ItemPhrase.plugin p) := by
      rw [p.tokens_methods p.methods]
      exact List.mem_append_right _ (List.mem_append_left _ hmethods)
    exact List.mem_flatMap.2 ⟨_, List.mem_of_getElem? hitem, hplugin⟩

/-- A field of parameters or results is written in a block, or it is a bare type. -/
theorem ParamsPhrase.exists_of_mem_fields {p : ParamsPhrase} {field : Field}
    (h : field ∈ (FieldSet.ofNode p.node).toList) :
    (∃ (block : BlockPhrase) (number : Nat) (phrase : FieldPhrase), p = .block block ∧
      block.fields[number]? = some phrase ∧ Field.ofNode phrase.node = field) ∨
    ∃ type : Terminal .identifier, p = .named type ∧
      field = { name := Text.lowerCamel type.1.text, type := type.1.text } := by
  cases p with
  | named type => exact .inr ⟨type, rfl, List.mem_singleton.1 h⟩
  | block block =>
    rw [ParamsPhrase.node, FieldSet.ofNode_block] at h
    obtain ⟨node, hnode, rfl⟩ := List.mem_map.1 h
    obtain ⟨phrase, hphrase, rfl⟩ := List.mem_map.1 hnode
    obtain ⟨number, hnumber⟩ := List.mem_iff_getElem?.1 hphrase
    exact .inl ⟨block, number, phrase, rfl, hnumber, rfl⟩

/-- The parameters and the results of the method of a phrase. -/
theorem MethodPhrase.mem_fields_ofNode {p : MethodPhrase} {field : Field} :
    field ∈ (Method.ofNode p.node).fields.toList ++ (Method.ofNode p.node).returns.toList ↔
      ∃ part, field ∈ (FieldSet.ofNode (p.signature.part part).node).toList := by
  obtain ⟨-, hfields, hreturns⟩ := Method.foldl_withOption_keeps (p.node.options.getD [])
    { name := p.node.name.text, fields := .ofNode p.node.params, returns := .ofNode p.node.returns }
  rw [Method.ofNode_eq, hfields, hreturns, List.mem_append]
  constructor
  · rintro (hfield | hfield)
    · exact ⟨.parameters, hfield⟩
    · exact ⟨.results, hfield⟩
  · rintro ⟨part, hfield⟩
    cases part with
    | parameters => exact .inl hfield
    | results => exact .inr hfield

/-- A field of the definitions of a unit is a field of the unit, or it is a bare type. -/
theorem UnitPhrase.exists_of_mem_fields {field : Field}
    (h : field ∈ (unit.nodes.map Definition.ofNode).flatMap Definition.fields) :
    (∃ place phrase, unit.field? place = some phrase ∧ Field.ofNode phrase.node = field) ∨
      ∃ type : Terminal .identifier, type.1 ∈ tokens unit ∧
        field = { name := Text.lowerCamel type.1.text, type := type.1.text } := by
  obtain ⟨definition, hdefinition, hfield⟩ := List.mem_flatMap.1 h
  obtain ⟨node, hnode, rfl⟩ := List.mem_map.1 hdefinition
  obtain ⟨item, hitem, rfl⟩ := List.mem_map.1 hnode
  obtain ⟨i, hi⟩ := List.mem_iff_getElem?.1 hitem
  cases item with
  | schema p =>
    rw [ItemPhrase.node, Definition.ofNode_schema] at hfield
    obtain ⟨node, hnode, rfl⟩ := List.mem_map.1 hfield
    obtain ⟨phrase, hphrase, rfl⟩ := List.mem_map.1 hnode
    obtain ⟨number, hnumber⟩ := List.mem_iff_getElem?.1 hphrase
    have hblock : unit.block? (.schema i) = some p.block := by
      rw [block?, hi]
      rfl
    exact .inl ⟨⟨.schema i, number⟩, phrase, Option.bind_eq_some_iff.2 ⟨_, hblock, hnumber⟩, rfl⟩
  | plugin p =>
    rw [ItemPhrase.node, Definition.ofNode_plugin] at hfield
    obtain ⟨method, hmethod, hmem⟩ := List.mem_flatMap.1 hfield
    obtain ⟨node, hnode, rfl⟩ := List.mem_map.1 hmethod
    obtain ⟨phrase, hphrase, rfl⟩ := List.mem_map.1 hnode
    obtain ⟨number, hnumber⟩ := List.mem_iff_getElem?.1 hphrase
    obtain ⟨part, hpart⟩ := MethodPhrase.mem_fields_ofNode.1 hmem
    have hmethod : unit.method? i number = some phrase :=
      Option.bind_eq_some_iff.2 ⟨_, hi, hnumber⟩
    obtain ⟨block, place, written, hblock, hwritten, rfl⟩ | ⟨type, htype, rfl⟩ :=
      ParamsPhrase.exists_of_mem_fields hpart
    · have hfound : unit.block? (.method i number part) = some block := by
        rw [block?, hmethod, Option.bind_some, hblock]
        rfl
      exact .inl ⟨⟨.method i number part, place⟩, written,
        Option.bind_eq_some_iff.2 ⟨_, hfound, hwritten⟩, rfl⟩
    · refine .inr ⟨type, tokens_method?_subset hmethod ?_, rfl⟩
      rw [phrase.tokens_part part, htype]
      exact List.mem_append_right _ (List.mem_append_left _ List.mem_cons_self)

/-- A field of a unit is a field of its definitions. -/
theorem UnitPhrase.mem_fields_of_field? {place : FieldPlace} {phrase : FieldPhrase}
    (h : unit.field? place = some phrase) :
    Field.ofNode phrase.node ∈ (unit.nodes.map Definition.ofNode).flatMap Definition.fields := by
  obtain ⟨block, hblock, hfield⟩ := Option.bind_eq_some_iff.1 h
  have hmem : Field.ofNode phrase.node ∈ block.nodes.map Field.ofNode :=
    List.mem_map_of_mem (List.mem_map_of_mem (List.mem_of_getElem? hfield))
  have hdefinition {item : ItemPhrase} (hitem : item ∈ unit)
      (hfields : Field.ofNode phrase.node ∈ (Definition.ofNode item.node).fields) :
      Field.ofNode phrase.node ∈ (unit.nodes.map Definition.ofNode).flatMap Definition.fields :=
    List.mem_flatMap.2 ⟨_, List.mem_map_of_mem (List.mem_map_of_mem hitem), hfields⟩
  obtain ⟨_, p, -, hitem, rfl⟩ | ⟨_, _, part, p, method, -, hitem, hmethod, hpart⟩ :=
    exists_of_block? hblock
  · refine hdefinition (List.mem_of_getElem? hitem) ?_
    rw [ItemPhrase.node, Definition.ofNode_schema]
    exact hmem
  · have hparams : Field.ofNode phrase.node ∈
        (FieldSet.ofNode (method.signature.part part).node).toList := by
      rw [hpart, ParamsPhrase.node, FieldSet.ofNode_block]
      exact hmem
    refine hdefinition (List.mem_of_getElem? hitem) ?_
    rw [ItemPhrase.node, Definition.ofNode_plugin]
    exact List.mem_flatMap.2
      ⟨_, List.mem_map_of_mem (List.mem_map_of_mem (List.mem_of_getElem? hmethod)),
        MethodPhrase.mem_fields_ofNode.2 ⟨part, hparams⟩⟩

/-- The tokens of a field of a unit are tokens of the unit. -/
theorem UnitPhrase.tokens_field?_subset {place : FieldPlace} {phrase : FieldPhrase}
    (h : unit.field? place = some phrase) : tokens phrase ⊆ tokens unit := by
  obtain ⟨block, hblock, hfield⟩ := Option.bind_eq_some_iff.1 h
  obtain ⟨front, back, hsite⟩ := exists_site hblock
  intro token htoken
  have hmem : token ∈ tokens block :=
    List.mem_append_left _ (List.mem_append_right _
      (List.mem_flatMap.2 ⟨phrase, List.mem_of_getElem? hfield, htoken⟩))
  rw [hsite.tokens_unit]
  exact List.mem_append_right _ (List.mem_append_left _ hmem)

/-! ## Names -/

/-- The names and the types of the fields of an accepted source are words. -/
theorem isWordText_of_mem_fields {source : String} {definitions : List Definition}
    (h : compile source = .ok definitions) {field : Field}
    (hfield : field ∈ definitions.flatMap Definition.fields) :
    Text.IsWordText field.name.toList ∧ Text.IsWordText field.type.toList := by
  obtain ⟨unit, p, htokens, -, rfl⟩ := compile_eq_ok_iff.1 h
  have hword (name : Terminal .identifier) (hname : name.1 ∈ tokens unit) :
      Text.IsWordText name.1.text.toList := isWordText_of_tokensOf htokens hname name.2
  obtain ⟨place, phrase, hphrase, rfl⟩ | ⟨type, htype, rfl⟩ :=
    UnitPhrase.exists_of_mem_fields hfield
  · have hsubset := UnitPhrase.tokens_field?_subset hphrase
    have hmem : phrase.name.1 ∈ tokens phrase ∧ phrase.type.1 ∈ tokens phrase := by
      constructor <;> simp [tokens]
    obtain ⟨hname, htype, -⟩ := Field.ofNode_parts phrase.node
    rw [hname, htype]
    exact ⟨hword phrase.name (hsubset hmem.1), hword phrase.type (hsubset hmem.2)⟩
  · exact ⟨Text.isWordText_lowerCamel (hword type htype), hword type htype⟩

/-- The methods of an accepted source are named with words. -/
theorem isWordText_of_mem_methods {source : String} {definitions : List Definition}
    (h : compile source = .ok definitions) {plugin : Plugin}
    (hplugin : .plugin plugin ∈ definitions) {method : Method} (hmethod : method ∈ plugin.methods) :
    Text.IsWordText method.name.toList := by
  obtain ⟨unit, p, htokens, -, rfl⟩ := compile_eq_ok_iff.1 h
  obtain ⟨node, hnode, hdefinition⟩ := List.mem_map.1 hplugin
  obtain ⟨item, hitem, rfl⟩ := List.mem_map.1 hnode
  obtain ⟨i, hi⟩ := List.mem_iff_getElem?.1 hitem
  cases item with
  | schema phrase => cases hdefinition
  | plugin phrase =>
    rw [ItemPhrase.node, Definition.ofNode_plugin] at hdefinition
    cases hdefinition
    obtain ⟨node, hnode, rfl⟩ := List.mem_map.1 hmethod
    obtain ⟨written, hwritten, rfl⟩ := List.mem_map.1 hnode
    obtain ⟨number, hnumber⟩ := List.mem_iff_getElem?.1 hwritten
    have hfound : UnitPhrase.method? unit i number = some written :=
      Option.bind_eq_some_iff.2 ⟨_, hi, hnumber⟩
    have hsubset := UnitPhrase.tokens_method?_subset hfound
    have hname : (Method.ofNode written.node).name = written.name.1.text := by
      rw [Method.ofNode_eq]
      exact (Method.foldl_withOption_keeps _ _).1
    rw [hname]
    exact isWordText_of_tokensOf htokens (hsubset (by simp [tokens])) written.name.2

end SchemaLang
