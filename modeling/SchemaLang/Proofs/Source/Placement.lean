import Mathlib.Logic.Basic
import SchemaLang.Definition.Names
import SchemaLang.Definition.OfTree
import SchemaLang.Proofs.Tree.Moved

/-!
# Definitions and the places of tokens

Definitions do not depend on where the tokens of their trees stand (`Definition.ofNode_moved`). A
phrase at other places has the trees at these places, so this holds of phrases too
(`UnitPhrase.ofNode_moved`). Whether the items of a unit have distinct names can be seen from the
definitions (`verifyNames_eq_ok_iff`), and where they have not, the error moves with its item
(`verifyNames_moved`).
-/

namespace SchemaLang

open Phrase

variable (move : Text.Position → Text.Position)

/-! ## Definitions of moved trees -/

/-- Options are the same at other places. -/
theorem foldl_options_moved {α : Type} (step : α → OptionNode → α)
    (h : ∀ value entry, step value (OptionNode.moved move entry) = step value entry)
    (options : Option (List OptionNode)) (value : α) :
    ((options.map (List.map (OptionNode.moved move))).getD []).foldl step value =
      (options.getD []).foldl step value := by
  cases options with
  | none => rfl
  | some entries =>
    have hstep : (fun value entry ↦ step value (OptionNode.moved move entry)) = step :=
      funext fun value ↦ funext (h value)
    calc
      (entries.map (OptionNode.moved move)).foldl step value =
          entries.foldl (fun value entry ↦ step value (OptionNode.moved move entry)) value :=
        List.foldl_map
      _ = entries.foldl step value := by rw [hstep]

theorem Field.withArray_moved (field : Field) (array : Option ArrayNode) :
    field.withArray (array.map (ArrayNode.moved move)) = field.withArray array := by
  obtain _ | ⟨_ | size⟩ := array <;> rfl

theorem Field.ofNode_moved (node : FieldNode) :
    Field.ofNode (node.moved move) = Field.ofNode node := by
  obtain ⟨name, optional, type, options, array, default⟩ := node
  have hoptions := foldl_options_moved move Field.withOption (fun _ _ ↦ rfl) options
  have hoptional : (optional.map (·.moved move)).isSome = optional.isSome := Option.isSome_map
  have hdefault : (default.map (·.moved move)).map Literal.ofToken =
      default.map Literal.ofToken := by
    cases default <;> rfl
  rw [ofNode_eq, ofNode_eq]
  dsimp only [FieldNode.moved]
  rw [hoptions, hoptional, hdefault, withArray_moved]
  rfl

theorem Field.map_ofNode_moved (fields : List FieldNode) :
    (fields.map (FieldNode.moved move)).map Field.ofNode = fields.map Field.ofNode := by
  rw [List.map_map]
  exact List.map_congr_left fun node _ ↦ Field.ofNode_moved move node

theorem FieldSet.ofNode_moved (node : ParamsNode) :
    FieldSet.ofNode (node.moved move) = FieldSet.ofNode node := by
  cases node with
  | block fields =>
    rw [ParamsNode.moved, ofNode_block, ofNode_block, Field.map_ofNode_moved]
  | named type => rfl

theorem Method.ofNode_moved (node : MethodNode) :
    Method.ofNode (node.moved move) = Method.ofNode node := by
  obtain ⟨name, options, params, returns⟩ := node
  have hoptions := foldl_options_moved move Method.withOption (fun _ _ ↦ rfl) options
  have hparams := FieldSet.ofNode_moved move params
  have hreturns := FieldSet.ofNode_moved move returns
  rw [ofNode_eq, ofNode_eq]
  dsimp only [MethodNode.moved]
  rw [hoptions, hparams, hreturns]
  rfl

theorem PluginNode.name_moved (node : PluginNode) : (node.moved move).name = node.name := by
  have hmore : (node.more.map (·.moved move)).map (·.text) = node.more.map (·.text) := by
    rw [List.map_map]
    rfl
  exact congrArg (fun texts ↦ ".".intercalate (node.first.text :: texts)) hmore

theorem Plugin.ofNode_moved (node : PluginNode) :
    Plugin.ofNode (node.moved move) = Plugin.ofNode node := by
  have hmethods : (node.methods.map (MethodNode.moved move)).map Method.ofNode =
      node.methods.map Method.ofNode := by
    rw [List.map_map]
    exact List.map_congr_left fun method _ ↦ Method.ofNode_moved move method
  have hname := node.name_moved move
  rw [ofNode_eq, ofNode_eq, hname]
  obtain ⟨first, more, asName, methods⟩ := node
  dsimp only [PluginNode.moved]
  rw [hmethods]
  cases asName <;> rfl

/-- The definition of an item does not depend on the places of its tokens. -/
theorem Definition.ofNode_moved (node : ItemNode) :
    Definition.ofNode (node.moved move) = Definition.ofNode node := by
  cases node with
  | schema node =>
    rw [ItemNode.moved, ofNode_schema, ofNode_schema, SchemaNode.moved, Field.map_ofNode_moved]
    rfl
  | plugin node => exact congrArg Definition.plugin (Plugin.ofNode_moved move node)

theorem Definition.map_ofNode_moved (nodes : List ItemNode) :
    (nodes.map (ItemNode.moved move)).map Definition.ofNode = nodes.map Definition.ofNode := by
  rw [List.map_map]
  exact List.map_congr_left fun node _ ↦ Definition.ofNode_moved move node

/-! ## Trees of moved phrases -/

theorem OptionsPhrase.nodes_moved (p : OptionsPhrase) :
    (Phrase.moved move p).nodes = p.nodes.map (OptionNode.moved move) := by
  obtain ⟨opening, entries, closing⟩ := p
  cases entries with
  | none => rfl
  | some entries =>
    obtain ⟨first, more⟩ := entries
    have hmore : (Phrase.moved move more).map (fun pair ↦ pair.2.node) =
        (more.map fun pair ↦ pair.2.node).map (OptionNode.moved move) := by
      simp only [Phrase.moved, List.map_map]
      rfl
    exact congrArg (first.node.moved move :: ·) hmore

/-- Trees of an optional phrase at other places. -/
theorem map_node_moved {δ ν : Type} [Phrase δ] (node : δ → ν) (change : ν → ν)
    (h : ∀ p : δ, node (Phrase.moved move p) = change (node p)) (phrase : Option δ) :
    (Phrase.moved move phrase).map node = (phrase.map node).map change := by
  cases phrase with
  | none => rfl
  | some p => exact congrArg some (h p)

/-- Trees of a list of phrases at other places. -/
theorem map_nodes_moved {δ ν : Type} [Phrase δ] (node : δ → ν) (change : ν → ν)
    (h : ∀ p : δ, node (Phrase.moved move p) = change (node p)) (phrases : List δ) :
    (Phrase.moved move phrases).map node = (phrases.map node).map change := by
  have hmoved : Phrase.moved move phrases = phrases.map (Phrase.moved move) := rfl
  rw [hmoved, List.map_map, List.map_map]
  exact List.map_congr_left fun p _ ↦ h p

theorem ArrayPhrase.node_moved (p : ArrayPhrase) :
    (Phrase.moved move p).node = p.node.moved move :=
  congrArg ArrayNode.mk (map_node_moved move (·.1) (·.moved move) (fun _ ↦ rfl) p.size)

theorem FieldPhrase.node_moved (p : FieldPhrase) :
    (Phrase.moved move p).node = p.node.moved move := by
  have hoptional : (Phrase.moved move p.optional).map (·.1) =
      (p.optional.map (·.1)).map (·.moved move) :=
    map_node_moved move (fun q : Terminal .questionMark ↦ q.1) _ (fun _ ↦ rfl) _
  have hoptions := map_node_moved move _ _ (OptionsPhrase.nodes_moved move) p.options
  have harray := map_node_moved move _ _ (ArrayPhrase.node_moved move) p.array
  have hdefault : (Phrase.moved move p.default).map (·.value.1) =
      (p.default.map (·.value.1)).map (·.moved move) :=
    map_node_moved move (fun q : DefaultPhrase ↦ q.value.1) _ (fun _ ↦ rfl) _
  calc
    (Phrase.moved move p).node =
        ⟨p.name.1.moved move, (Phrase.moved move p.optional).map (·.1), p.type.1.moved move,
          (Phrase.moved move p.options).map OptionsPhrase.nodes,
          (Phrase.moved move p.array).map ArrayPhrase.node,
          (Phrase.moved move p.default).map (·.value.1)⟩ := rfl
    _ = p.node.moved move := by
      rw [hoptional, hoptions, harray, hdefault]
      rfl

theorem BlockPhrase.nodes_moved (p : BlockPhrase) :
    (Phrase.moved move p).nodes = p.nodes.map (FieldNode.moved move) :=
  map_nodes_moved move _ _ (FieldPhrase.node_moved move) p.fields

theorem ParamsPhrase.node_moved (p : ParamsPhrase) :
    (Phrase.moved move p).node = p.node.moved move := by
  cases p with
  | block p => exact congrArg ParamsNode.block (p.nodes_moved move)
  | named type => rfl

theorem SignaturePhrase.parameters_moved (p : SignaturePhrase) :
    (Phrase.moved move p).parameters = Phrase.moved move p.parameters := by
  cases p <;> rfl

theorem SignaturePhrase.results_moved (p : SignaturePhrase) :
    (Phrase.moved move p).returns.results = Phrase.moved move p.returns.results := by
  cases p <;> rfl

theorem MethodPhrase.node_moved (p : MethodPhrase) :
    (Phrase.moved move p).node = p.node.moved move := by
  have hoptions := map_node_moved move _ _ (OptionsPhrase.nodes_moved move) p.options
  have hparameters : (Phrase.moved move p.signature).parameters.node =
      p.signature.parameters.node.moved move := by
    rw [SignaturePhrase.parameters_moved, ParamsPhrase.node_moved]
  have hresults : (Phrase.moved move p.signature).returns.results.node =
      p.signature.returns.results.node.moved move := by
    rw [SignaturePhrase.results_moved, ParamsPhrase.node_moved]
  calc
    (Phrase.moved move p).node =
        ⟨p.name.1.moved move, (Phrase.moved move p.options).map OptionsPhrase.nodes,
          (Phrase.moved move p.signature).parameters.node,
          (Phrase.moved move p.signature).returns.results.node⟩ := rfl
    _ = p.node.moved move := by
      rw [hoptions, hparameters, hresults]
      rfl

theorem PluginPhrase.node_moved (p : PluginPhrase) :
    (Phrase.moved move p).node = p.node.moved move := by
  have hmore : (Phrase.moved move p.more).map (·.2.1) =
      (p.more.map (·.2.1)).map (·.moved move) :=
    map_nodes_moved move (fun q : Terminal .dot × Terminal .identifier ↦ q.2.1) _
      (fun _ ↦ rfl) _
  have hasName : (Phrase.moved move p.asName).map (·.2.1) =
      (p.asName.map (·.2.1)).map (·.moved move) :=
    map_node_moved move (fun q : Terminal .asWord × Terminal .identifier ↦ q.2.1) _
      (fun _ ↦ rfl) _
  have hmethods := map_nodes_moved move _ _ (MethodPhrase.node_moved move) p.methods
  calc
    (Phrase.moved move p).node =
        ⟨p.first.1.moved move, (Phrase.moved move p.more).map (·.2.1),
          (Phrase.moved move p.asName).map (·.2.1),
          (Phrase.moved move p.methods).map MethodPhrase.node⟩ := rfl
    _ = p.node.moved move := by
      rw [hmore, hasName, hmethods]
      rfl

theorem ItemPhrase.node_moved (p : ItemPhrase) :
    (Phrase.moved move p).node = p.node.moved move := by
  cases p with
  | schema p =>
    exact congrArg (fun fields ↦ ItemNode.schema ⟨p.name.1.moved move, fields⟩)
      (p.block.nodes_moved move)
  | plugin p => exact congrArg ItemNode.plugin (p.node_moved move)

theorem UnitPhrase.nodes_moved (unit : UnitPhrase) :
    UnitPhrase.nodes (Phrase.moved move unit) = unit.nodes.map (ItemNode.moved move) :=
  map_nodes_moved move _ _ (ItemPhrase.node_moved move) unit

/-- The definitions of a unit do not depend on the places of its tokens. -/
theorem UnitPhrase.ofNode_moved (unit : UnitPhrase) :
    (UnitPhrase.nodes (Phrase.moved move unit)).map Definition.ofNode =
      unit.nodes.map Definition.ofNode := by
  rw [UnitPhrase.nodes_moved, Definition.map_ofNode_moved]

/-! ## Names -/

theorem ItemNode.name_moved (node : ItemNode) : (node.moved move).name = node.name := by
  cases node with
  | schema node => rfl
  | plugin node => exact node.name_moved move

theorem ItemNode.nameToken_moved (node : ItemNode) :
    (node.moved move).nameToken = node.nameToken.moved move := by
  cases node <;> rfl

theorem firstRepeated?_moved (taken : List String) (nodes : List ItemNode) :
    firstRepeated? taken (nodes.map (ItemNode.moved move)) =
      (firstRepeated? taken nodes).map (ItemNode.moved move) := by
  induction nodes generalizing taken with
  | nil => rfl
  | cons node nodes ih =>
    rw [List.map_cons, firstRepeated?, firstRepeated?, ItemNode.name_moved, ih]
    split <;> rfl

/-- Where two items have one name, the error is at the moved token. -/
theorem verifyNames_moved (nodes : List ItemNode) :
    verifyNames (nodes.map (ItemNode.moved move)) =
      (verifyNames nodes).mapError (SourceError.moved move) := by
  unfold verifyNames
  rw [firstRepeated?_moved]
  cases firstRepeated? [] nodes with
  | none => rfl
  | some node =>
    dsimp only [Option.map_some, Except.mapError, SourceError.moved]
    rw [ItemNode.name_moved, ItemNode.nameToken_moved]
    rfl

theorem firstRepeated?_eq_none_iff {taken : List String} {nodes : List ItemNode} :
    firstRepeated? taken nodes = none ↔
      (nodes.map ItemNode.name).Nodup ∧ ∀ name ∈ nodes.map ItemNode.name, name ∉ taken := by
  induction nodes generalizing taken with
  | nil => simp [firstRepeated?]
  | cons node nodes ih =>
    rw [firstRepeated?, List.map_cons, List.nodup_cons]
    by_cases htaken : taken.contains node.name
    · rw [if_pos htaken]
      have hmem : node.name ∈ taken := List.contains_iff_mem.1 htaken
      exact iff_of_false (fun h ↦ nomatch h) fun h ↦ h.2 _ List.mem_cons_self hmem
    · have hnotMem : node.name ∉ taken := mt List.contains_iff_mem.2 htaken
      rw [if_neg htaken, ih]
      constructor
      · intro ⟨hnodup, hdisjoint⟩
        refine ⟨⟨fun hmem ↦ hdisjoint _ hmem List.mem_cons_self, hnodup⟩, fun name hname ↦ ?_⟩
        rcases List.mem_cons.1 hname with rfl | hname
        · exact hnotMem
        · exact fun hmem ↦ hdisjoint name hname (List.mem_cons_of_mem _ hmem)
      · intro ⟨⟨hnew, hnodup⟩, hdisjoint⟩
        refine ⟨hnodup, fun name hname hmem ↦ ?_⟩
        rcases List.mem_cons.1 hmem with rfl | hmem
        · exact hnew hname
        · exact hdisjoint name (List.mem_cons_of_mem _ hname) hmem

theorem Definition.name_ofNode (node : ItemNode) : (Definition.ofNode node).name = node.name := by
  cases node <;> rfl

theorem Definition.map_name_ofNode (nodes : List ItemNode) :
    (nodes.map Definition.ofNode).map Definition.name = nodes.map ItemNode.name := by
  rw [List.map_map]
  exact List.map_congr_left fun node _ ↦ Definition.name_ofNode node

/-- Names are accepted exactly if the definitions have distinct ones. -/
theorem verifyNames_eq_ok_iff {nodes : List ItemNode} :
    verifyNames nodes = .ok () ↔ ((nodes.map Definition.ofNode).map Definition.name).Nodup := by
  have hnone : verifyNames nodes = .ok () ↔ firstRepeated? [] nodes = none := by
    unfold verifyNames
    cases firstRepeated? [] nodes <;> simp
  rw [hnone, firstRepeated?_eq_none_iff, Definition.map_name_ofNode]
  exact and_iff_left fun name _ ↦ List.not_mem_nil

end SchemaLang
