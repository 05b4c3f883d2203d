import Mathlib.Data.List.Basic
import SchemaLang.Source.Events

/-!
# Options that the language does not have

A field has limits, an encoding, a length, a place counted from the end and an array size, a method
has a timeout; any other option is unsupported, and so is an array size that is no positive number.
An unsupported option changes nothing in what is read off a tree (`Field.withOption_eq_self_iff`),
so trees have the same definitions without some or all of them (`Definition.ofNode_keeping`).
Building the definitions warns of each unsupported option once and of nothing else
(`warnings_ofItems`).
-/

namespace SchemaLang

/-- An option and what it belongs to. -/
structure OwnedOption where
  owner : OptionOwner
  entry : OptionNode
  deriving DecidableEq, Repr

namespace OwnedOption

/-- An option with a key that its owner does not have, or an array size of zero or without one. -/
def Unsupported (option : OwnedOption) : Prop :=
  match option.owner with
  | .field =>
    option.entry.key.text ∉ ["min", "max", "encoding", "length", "fromEnd", "arraySize"] ∨
      option.entry.key.text = "arraySize" ∧ (option.entry.literal.toUnsigned64? = none ∨
        option.entry.literal.toUnsigned64? = some 0)
  | .method => option.entry.key.text ≠ "timeout"

instance (option : OwnedOption) : Decidable option.Unsupported :=
  match option with
  | ⟨.field, _⟩ => inferInstanceAs (Decidable (_ ∨ _))
  | ⟨.method, _⟩ => inferInstanceAs (Decidable (_ ≠ _))

end OwnedOption

/-! ## Options without effect -/

section OneOption

variable {entry : OptionNode}

theorem OptionNode.arraySize?_eq_none_iff : entry.arraySize? = none ↔
    entry.literal.toUnsigned64? = none ∨ entry.literal.toUnsigned64? = some 0 := by
  rw [arraySize?]
  cases entry.literal.toUnsigned64? with
  | none => simp
  | some size => simp [UInt64.pos_iff_ne_zero]

/-- A field has no option to set exactly if the option is unsupported. -/
theorem Field.withOption?_eq_none_iff {field : Field} : field.withOption? entry = none ↔
    OwnedOption.Unsupported ⟨.field, entry⟩ := by
  unfold withOption? OwnedOption.Unsupported
  split
  case h_6 hkey => simp [hkey, OptionNode.arraySize?_eq_none_iff]
  all_goals simp_all

theorem Method.withOption?_eq_none_iff {method : Method} : method.withOption? entry = none ↔
    OwnedOption.Unsupported ⟨.method, entry⟩ := by
  unfold withOption? OwnedOption.Unsupported
  split <;> simp_all

/-- The options of a field that change nothing are those that it does not have. -/
theorem Field.withOption_eq_self_iff :
    (∀ field : Field, field.withOption entry = field) ↔
      OwnedOption.Unsupported ⟨.field, entry⟩ := by
  constructor
  · intro h
    -- A field without attributes shows the change.
    let blank : Field := { name := "", type := "" }
    have hblank : blank.withOption entry = blank := h blank
    have hnone : blank.withOption? entry = none := by
      unfold withOption at hblank
      unfold withOption? at hblank ⊢
      split at hblank
      case h_6 hkey => cases hsize : entry.arraySize? <;> simp_all [blank]
      all_goals simp_all [blank]
    exact withOption?_eq_none_iff.1 hnone
  · intro h field
    rw [withOption, withOption?_eq_none_iff.2 h]
    rfl

/-- The options of a method that change nothing are those that it does not have. -/
theorem Method.withOption_eq_self_iff :
    (∀ method : Method, method.withOption entry = method) ↔
      OwnedOption.Unsupported ⟨.method, entry⟩ := by
  constructor
  · intro h hkey
    have hblank := h { name := "", fields := .many [], returns := .many [] }
    rw [withOption, withOption?, if_pos hkey] at hblank
    cases hblank
  · intro h method
    rw [withOption, withOption?_eq_none_iff.2 h]
    rfl

end OneOption

/-- Steps that change nothing can be left out. -/
theorem foldl_filter_eq {α β : Type} {step : α → β → α} {keep : β → Bool} {steps : List β}
    (h : ∀ b ∈ steps, keep b = false → ∀ a, step a b = a) (start : α) :
    (steps.filter keep).foldl step start = steps.foldl step start := by
  rw [List.foldl_filter]
  refine List.foldl_ext _ _ _ fun a b hb ↦ ?_
  cases hkeep : keep b with
  | false => exact (h b hb hkeep a).symm
  | true => rfl

/-! ## Trees with fewer options -/

/-- The options of a field. -/
def FieldNode.ownedOptions (node : FieldNode) : List OwnedOption :=
  (node.options.getD []).map (⟨.field, ·⟩)

/-- A field with the options that are to be kept. -/
def FieldNode.keeping (keep : OwnedOption → Bool) (node : FieldNode) : FieldNode :=
  { node with options := node.options.map (·.filter fun entry ↦ keep ⟨.field, entry⟩) }

/-- The options of parameters or results. -/
def ParamsNode.ownedOptions : ParamsNode → List OwnedOption
  | .named _ => []
  | .block fields => fields.flatMap FieldNode.ownedOptions

/-- Parameters or results with the options that are to be kept. -/
def ParamsNode.keeping (keep : OwnedOption → Bool) : ParamsNode → ParamsNode
  | .named type => .named type
  | .block fields => .block (fields.map (·.keeping keep))

/-- The options of a method, behind those of its parameters and results. -/
def MethodNode.ownedOptions (node : MethodNode) : List OwnedOption :=
  node.params.ownedOptions ++ node.returns.ownedOptions ++
    (node.options.getD []).map (⟨.method, ·⟩)

/-- A method with the options that are to be kept. -/
def MethodNode.keeping (keep : OwnedOption → Bool) (node : MethodNode) : MethodNode :=
  { node with
    options := node.options.map (·.filter fun entry ↦ keep ⟨.method, entry⟩)
    params := node.params.keeping keep
    returns := node.returns.keeping keep }

namespace ItemNode

/-- The options of an item. -/
def ownedOptions : ItemNode → List OwnedOption
  | .schema node => node.fields.flatMap FieldNode.ownedOptions
  | .plugin node => node.methods.flatMap MethodNode.ownedOptions

/-- An item with the options that are to be kept. -/
def keeping (keep : OwnedOption → Bool) : ItemNode → ItemNode
  | .schema node => .schema { node with fields := node.fields.map (·.keeping keep) }
  | .plugin node => .plugin { node with methods := node.methods.map (·.keeping keep) }

end ItemNode

section Keeping

variable {keep : OwnedOption → Bool}

theorem flatMap_map_eq_filter_flatMap {α : Type} {change : α → α}
    {options : α → List OwnedOption} (h : ∀ x, options (change x) = (options x).filter keep)
    (xs : List α) :
    (xs.map change).flatMap options = (xs.flatMap options).filter keep := by
  rw [List.flatMap_map, List.filter_flatMap]
  exact congrArg (xs.flatMap ·) (funext h)

theorem getD_map_filter {α : Type} (p : α → Bool) (xs : Option (List α)) :
    (xs.map (·.filter p)).getD [] = (xs.getD []).filter p :=
  Option.getD_map (·.filter p) [] xs

theorem map_getD_filter (owner : OptionOwner) (options : Option (List OptionNode)) :
    ((options.map (·.filter fun entry ↦ keep ⟨owner, entry⟩)).getD []).map (⟨owner, ·⟩) =
      ((options.getD []).map (OwnedOption.mk owner)).filter keep := by
  rw [getD_map_filter, List.filter_map]
  rfl

theorem FieldNode.ownedOptions_keeping (node : FieldNode) :
    (node.keeping keep).ownedOptions = node.ownedOptions.filter keep :=
  map_getD_filter .field node.options

theorem ParamsNode.ownedOptions_keeping (node : ParamsNode) :
    (node.keeping keep).ownedOptions = node.ownedOptions.filter keep := by
  cases node with
  | named type => rfl
  | block fields => exact flatMap_map_eq_filter_flatMap FieldNode.ownedOptions_keeping fields

theorem MethodNode.ownedOptions_keeping (node : MethodNode) :
    (node.keeping keep).ownedOptions = node.ownedOptions.filter keep := by
  rw [ownedOptions, ownedOptions, List.filter_append, List.filter_append, ← map_getD_filter,
    ← node.params.ownedOptions_keeping, ← node.returns.ownedOptions_keeping]
  rfl

/-- Exactly the options that are to be kept are left. -/
theorem ItemNode.ownedOptions_keeping (node : ItemNode) :
    (node.keeping keep).ownedOptions = node.ownedOptions.filter keep := by
  cases node with
  | schema node => exact flatMap_map_eq_filter_flatMap FieldNode.ownedOptions_keeping node.fields
  | plugin node => exact flatMap_map_eq_filter_flatMap MethodNode.ownedOptions_keeping node.methods

theorem Field.ofNode_keeping {node : FieldNode}
    (h : ∀ option ∈ node.ownedOptions, keep option = false → option.Unsupported) :
    Field.ofNode (node.keeping keep) = Field.ofNode node := by
  have hoptions (start : Field) : ((node.keeping keep).options.getD []).foldl withOption start =
      (node.options.getD []).foldl withOption start := by
    rw [FieldNode.keeping, getD_map_filter]
    refine foldl_filter_eq (fun entry hentry hkeep ↦ ?_) start
    exact withOption_eq_self_iff.2 (h _ (List.mem_map_of_mem hentry) hkeep)
  rw [ofNode_eq, ofNode_eq, hoptions]
  rfl

theorem FieldSet.ofNode_keeping {node : ParamsNode}
    (h : ∀ option ∈ node.ownedOptions, keep option = false → option.Unsupported) :
    FieldSet.ofNode (node.keeping keep) = FieldSet.ofNode node := by
  cases node with
  | named type => rfl
  | block fields =>
    rw [ParamsNode.keeping, ofNode_block, ofNode_block, List.map_map]
    refine congrArg FieldSet.many (List.map_congr_left fun field hfield ↦ ?_)
    exact Field.ofNode_keeping fun option hoption ↦
      h option (List.mem_flatMap_of_mem hfield hoption)

theorem Method.ofNode_keeping {node : MethodNode}
    (h : ∀ option ∈ node.ownedOptions, keep option = false → option.Unsupported) :
    Method.ofNode (node.keeping keep) = Method.ofNode node := by
  simp only [MethodNode.ownedOptions, List.forall_mem_append] at h
  obtain ⟨⟨hparams, hreturns⟩, hown⟩ := h
  have hoptions (start : Method) : ((node.keeping keep).options.getD []).foldl withOption start =
      (node.options.getD []).foldl withOption start := by
    rw [MethodNode.keeping, getD_map_filter]
    refine foldl_filter_eq (fun entry hentry hkeep ↦ ?_) start
    exact withOption_eq_self_iff.2 (hown _ (List.mem_map_of_mem hentry) hkeep)
  rw [ofNode_eq, ofNode_eq, hoptions, MethodNode.keeping, FieldSet.ofNode_keeping hparams,
    FieldSet.ofNode_keeping hreturns]

/-- Without some of the unsupported options a tree has the same definition. -/
theorem Definition.ofNode_keeping {node : ItemNode}
    (h : ∀ option ∈ node.ownedOptions, keep option = false → option.Unsupported) :
    Definition.ofNode (node.keeping keep) = Definition.ofNode node := by
  cases node with
  | schema node =>
    have hfields : (node.fields.map (·.keeping keep)).map Field.ofNode =
        node.fields.map Field.ofNode := by
      rw [List.map_map]
      exact List.map_congr_left fun field hfield ↦ Field.ofNode_keeping fun option hoption ↦
        h option (List.mem_flatMap_of_mem hfield hoption)
    rw [ItemNode.keeping, ofNode_schema, ofNode_schema, hfields]
  | plugin node =>
    have hmethods : (node.methods.map (·.keeping keep)).map Method.ofNode =
        node.methods.map Method.ofNode := by
      rw [List.map_map]
      exact List.map_congr_left fun method hmethod ↦ Method.ofNode_keeping fun option hoption ↦
        h option (List.mem_flatMap_of_mem hmethod hoption)
    rw [ItemNode.keeping, ofNode_plugin, ofNode_plugin, hmethods]
    rfl

end Keeping

/-! ## Warnings -/

/-- What a warning says of an option: its owner, its key and where the key stands. -/
def OwnedOption.report (option : OwnedOption) : IgnoredOption :=
  ⟨option.owner, option.entry.key.text, option.entry.key.position⟩

/-- The reports of the unsupported ones among options. -/
def unsupportedReports (options : List OwnedOption) : List IgnoredOption :=
  (options.filter (·.Unsupported)).map OwnedOption.report

theorem mem_unsupportedReports {option : OwnedOption} {options : List OwnedOption}
    (hmem : option ∈ options) (h : option.Unsupported) :
    option.report ∈ unsupportedReports options :=
  List.mem_map_of_mem (List.mem_filter.2 ⟨hmem, decide_eq_true h⟩)

theorem unsupportedReports_append (front back : List OwnedOption) :
    unsupportedReports (front ++ back) = unsupportedReports front ++ unsupportedReports back := by
  rw [unsupportedReports, List.filter_append, List.map_append]
  rfl

theorem unsupportedReports_flatMap {α : Type} (options : α → List OwnedOption) (xs : List α) :
    unsupportedReports (xs.flatMap options) = xs.flatMap (unsupportedReports ∘ options) := by
  rw [unsupportedReports, List.filter_flatMap, List.map_flatMap]
  rfl

/-- Setting options reports the unsupported ones, where these are the ones that set nothing. -/
theorem Built.ignored_withOptions_eq {α : Type} {owner : OptionOwner}
    {set? : α → OptionNode → Option α}
    (h : ∀ current entry, set? current entry = none ↔ OwnedOption.Unsupported ⟨owner, entry⟩)
    (start : α) (entries : List OptionNode) :
    (withOptions owner set? start entries).ignored =
      unsupportedReports (entries.map (⟨owner, ·⟩)) := by
  rw [unsupportedReports, List.filter_map, List.map_map]
  refine ignored_withOptions owner (fun current entry ↦ ?_) start entries
  rw [Bool.eq_iff_iff, Option.isNone_iff_eq_none, h]
  exact decide_eq_true_iff.symm

theorem FieldNode.ignoredOptions_eq (node : FieldNode) :
    node.ignoredOptions = unsupportedReports node.ownedOptions :=
  calc
    node.ignoredOptions = (Built.withOptions .field Field.withOption? _ _).ignored :=
      List.append_nil _
    _ = unsupportedReports node.ownedOptions :=
      Built.ignored_withOptions_eq (fun _ _ ↦ Field.withOption?_eq_none_iff) _ _

theorem ParamsNode.ignoredOptions_eq (node : ParamsNode) :
    node.ignoredOptions = unsupportedReports node.ownedOptions := by
  cases node with
  | named type => rfl
  | block fields =>
    rw [ignoredOptions_block, ownedOptions, unsupportedReports_flatMap]
    exact congrArg (fields.flatMap ·) (funext FieldNode.ignoredOptions_eq)

theorem MethodNode.ignoredOptions_eq (node : MethodNode) :
    node.ignoredOptions = unsupportedReports node.ownedOptions := by
  rw [ownedOptions, unsupportedReports_append, unsupportedReports_append,
    ← node.params.ignoredOptions_eq, ← node.returns.ignoredOptions_eq, List.append_assoc,
    ← Built.ignored_withOptions_eq (fun _ _ ↦ Method.withOption?_eq_none_iff)]
  rfl

/-- The options of an item that are left out are its unsupported ones. -/
theorem ItemNode.ignoredOptions_eq (node : ItemNode) :
    node.ignoredOptions = unsupportedReports node.ownedOptions := by
  cases node with
  | schema node =>
    rw [ignoredOptions_schema, ownedOptions, unsupportedReports_flatMap]
    exact congrArg (node.fields.flatMap ·) (funext FieldNode.ignoredOptions_eq)
  | plugin node =>
    rw [ignoredOptions_plugin, ownedOptions, unsupportedReports_flatMap]
    exact congrArg (node.methods.flatMap ·) (funext MethodNode.ignoredOptions_eq)

theorem Event.filter_isWarning_ofItems (nodes : List ItemNode) :
    (ofItems nodes).filter isWarning =
      (unsupportedReports (nodes.flatMap ItemNode.ownedOptions)).map ignored := by
  have hreports : nodes.flatMap ItemNode.ignoredOptions =
      unsupportedReports (nodes.flatMap ItemNode.ownedOptions) := by
    rw [unsupportedReports_flatMap]
    exact congrArg (nodes.flatMap ·) (funext ItemNode.ignoredOptions_eq)
  have hall (reports : List IgnoredOption) :
      (reports.map ignored).filter isWarning = reports.map ignored := by
    rw [List.filter_eq_self, List.forall_mem_map]
    exact fun _ _ ↦ rfl
  rw [ofItems_eq, List.filter_append, hall, hreports]
  exact List.append_nil _

/-- An item without its unsupported options. -/
def ItemNode.supportedOnly (node : ItemNode) : ItemNode := node.keeping (!decide ·.Unsupported)

/--
Building the definitions of trees warns of the unsupported options, each once, in the order of the
trees, with the text and the place of its key. Without exactly these options the trees have the
same definitions, and building them warns of nothing.
-/
theorem warnings_ofItems (nodes : List ItemNode) :
    (Event.ofItems nodes).filter Event.isWarning =
      ((nodes.flatMap ItemNode.ownedOptions).filter (·.Unsupported)).map (fun option ↦
        .ignored ⟨option.owner, option.entry.key.text, option.entry.key.position⟩) ∧
    (nodes.map ItemNode.supportedOnly).flatMap ItemNode.ownedOptions =
      (nodes.flatMap ItemNode.ownedOptions).filter (!decide ·.Unsupported) ∧
    (nodes.map ItemNode.supportedOnly).map Definition.ofNode = nodes.map Definition.ofNode ∧
    (Event.ofItems (nodes.map ItemNode.supportedOnly)).filter Event.isWarning = [] := by
  have hkept : (nodes.map ItemNode.supportedOnly).flatMap ItemNode.ownedOptions =
      (nodes.flatMap ItemNode.ownedOptions).filter (!decide ·.Unsupported) :=
    flatMap_map_eq_filter_flatMap ItemNode.ownedOptions_keeping nodes
  refine ⟨?_, hkept, ?_, ?_⟩
  · rw [Event.filter_isWarning_ofItems, unsupportedReports, List.map_map]
    rfl
  · rw [List.map_map]
    refine List.map_congr_left fun node _ ↦ Definition.ofNode_keeping fun option _ hkeep ↦ ?_
    simpa using hkeep
  · rw [Event.filter_isWarning_ofItems, hkept, unsupportedReports, List.filter_filter]
    simp

end SchemaLang
