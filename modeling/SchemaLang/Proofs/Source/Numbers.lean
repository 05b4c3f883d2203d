import SchemaLang.Proofs.Number.Written
import SchemaLang.Proofs.Source.Fields
import SchemaLang.Proofs.Source.Interchange

/-!
# The numbers of a source

A number of a source is the value of an option or a default, and the definitions have its literal:
of options with the same key that of the last one (`Field.attribute?_ofNode`). In digits of the
Latin script the literal is the number, exact as far as possible. With a digit of another script the
same token is kept as a text (`compile_numbers`).
-/

namespace SchemaLang

open Phrase

/-! ## Literals of options -/

/-- The literal that options give for a key: that of the last one with the key. -/
def OptionNode.lastLiteral? (key : String) (options : List OptionNode) : Option Literal :=
  (options.reverse.find? (·.key.text = key)).map literal

/-- Where an option with a key sets an attribute, and any other option keeps it, the last counts. -/
theorem OptionNode.foldl_eq_lastLiteral? {α : Type} {set : α → OptionNode → α}
    {get : α → Option Literal} {key : String}
    (hset : ∀ a entry, get (set a entry) =
      if entry.key.text = key then some entry.literal else get a)
    (options : List OptionNode) (a : α) :
    get (options.foldl set a) = (lastLiteral? key options).or (get a) := by
  induction options generalizing a with
  | nil => rfl
  | cons entry options ih =>
    rw [List.foldl_cons, ih, hset, lastLiteral?, lastLiteral?, List.reverse_cons, List.find?_append,
      Option.map_or, Option.or_assoc]
    by_cases hkey : entry.key.text = key <;> simp [hkey]

/-- The keys of the options of a field that set a literal. -/
def literalKeys : List String := ["min", "max", "encoding", "length", "fromEnd"]

namespace Field

/-- The literal that an option with a key sets. -/
def attribute? (key : String) (field : Field) : Option Literal :=
  match key with
  | "min" => field.min
  | "max" => field.max
  | "encoding" => field.encoding
  | "length" => field.length
  | "fromEnd" => field.fromEnd
  | _ => none

theorem attribute?_withOption {key : String} (hkey : key ∈ literalKeys) (field : Field)
    (entry : OptionNode) : attribute? key (field.withOption entry) =
      if entry.key.text = key then some entry.literal else attribute? key field := by
  simp only [literalKeys, List.mem_cons, List.not_mem_nil, or_false] at hkey
  unfold withOption withOption?
  rcases hkey with rfl | rfl | rfl | rfl | rfl
  all_goals
    split
    case h_6 harray =>
      rw [harray, if_neg (by decide)]
      cases entry.arraySize? <;> rfl
    all_goals simp_all [attribute?]

/-- The options of a field set its attributes. -/
theorem attribute?_ofNode {key : String} (hkey : key ∈ literalKeys) (node : FieldNode) :
    attribute? key (ofNode node) = OptionNode.lastLiteral? key (node.options.getD []) := by
  let plain : Field :=
    { name := node.name.text, type := node.type.text, optional := node.optional.isSome }
  have hplain : attribute? key plain = none := by
    unfold attribute?
    split <;> rfl
  have hoptions := OptionNode.foldl_eq_lastLiteral? (attribute?_withOption hkey)
    (node.options.getD []) plain
  rw [hplain, Option.or_none] at hoptions
  -- Neither brackets nor a default set any of these attributes.
  rw [ofNode_eq]
  obtain _ | ⟨_ | _⟩ := node.array <;> exact hoptions

end Field

/-- The options of a method set its timeout. -/
theorem Method.timeout_ofNode (node : MethodNode) :
    (ofNode node).timeout = OptionNode.lastLiteral? "timeout" (node.options.getD []) := by
  have hset (method : Method) (entry : OptionNode) : (method.withOption entry).timeout =
      if entry.key.text = "timeout" then some entry.literal else method.timeout := by
    unfold withOption withOption?
    by_cases hkey : entry.key.text = "timeout" <;> simp [hkey]
  have hoptions := OptionNode.foldl_eq_lastLiteral? hset (node.options.getD [])
    { name := node.name.text, fields := .ofNode node.params, returns := .ofNode node.returns }
  rwa [Option.or_none, ← ofNode_eq] at hoptions

/-! ## Tokens of values -/

/-- The values that are written in a field: those of its options, and its default. -/
def FieldNode.values (node : FieldNode) : List Token :=
  (node.options.getD []).map OptionNode.value ++ node.default.toList

/-- The values that are written in a method, apart from its parameters and results. -/
def MethodNode.values (node : MethodNode) : List Token :=
  (node.options.getD []).map OptionNode.value

theorem FieldPhrase.values_subset (p : FieldPhrase) : p.node.values ⊆ tokens p := by
  intro token htoken
  rcases List.mem_append.1 htoken with hoption | hvalue
  · obtain ⟨entry, hentry, rfl⟩ := List.mem_map.1 hoption
    have hmem := OptionsPhrase.value_mem_tokens_getD p.options entry hentry
    exact List.mem_append_left _ (List.mem_append_left _ (List.mem_append_right _ hmem))
  · obtain ⟨default, hdefault, rfl⟩ := Option.map_eq_some_iff.1 (Option.mem_toList.1 hvalue)
    have hmem : default.value.1 ∈ tokens p.default := by
      rw [hdefault]
      exact List.mem_append_right _ List.mem_cons_self
    exact List.mem_append_right _ hmem

theorem MethodPhrase.values_subset (p : MethodPhrase) : p.node.values ⊆ tokens p := by
  intro token htoken
  obtain ⟨entry, hentry, rfl⟩ := List.mem_map.1 htoken
  have hmem := OptionsPhrase.value_mem_tokens_getD p.options entry hentry
  exact List.mem_append_left _ (List.mem_append_right _ hmem)

/-- The numbers of a source are written numbers, and only those in Latin digits have literals. -/
theorem exists_written_of_tokensOf {source : String} {body : List Token} {p : Text.Position}
    (h : tokensOf source = .ok (body ++ [Segment.endToken p])) {token : Token}
    (htoken : token ∈ body) (hkind : token.kind = .numberLiteral) :
    ∃ number : WrittenNumber, token.text = String.ofList number.text ∧
      (number.IsLatin → number.Denotes (Literal.ofToken token)) ∧
      (¬number.IsLatin → Literal.ofToken token = .text token.text) := by
  have hlexeme := LexemeForm.isLexeme_of_whole (lexeme?_of_number h htoken hkind)
  obtain ⟨number, hnumber⟩ := WrittenNumber.exists_of_isLexeme hlexeme
  have htext : token.text = String.ofList number.text := by
    rw [← hnumber, String.ofList_toList]
  have hliteral : Literal.ofToken token =
      (Literal.ofNumber? (String.ofList number.text)).getD (.text token.text) := by
    rw [Literal.ofToken, hkind, htext]
  refine ⟨number, htext, fun hlatin ↦ ?_, fun hforeign ↦ ?_⟩
  · obtain ⟨literal, hread, hdenotes⟩ := WrittenNumber.exists_denotes hlatin
    rw [hliteral, hread]
    exact hdenotes
  · rw [hliteral, WrittenNumber.ofNumber?_eq_none hforeign]
    rfl

/-- A method of a unit is a method of its definitions. -/
theorem UnitPhrase.exists_of_method? {unit : UnitPhrase} {item number : Nat} {phrase : MethodPhrase}
    (h : unit.method? item number = some phrase) :
    ∃ plugin, (unit.nodes.map Definition.ofNode)[item]? = some (.plugin plugin) ∧
      plugin.methods[number]? = some (Method.ofNode phrase.node) := by
  obtain ⟨p, hitem, hnumber⟩ := Option.bind_eq_some_iff.1 h
  cases p with
  | schema p => cases hnumber
  | plugin p =>
    have hmethod : p.methods[number]? = some phrase := hnumber
    refine ⟨Plugin.ofNode p.node, ?_, ?_⟩
    · rw [nodes, List.getElem?_map, List.getElem?_map, hitem]
      rfl
    · rw [Plugin.ofNode_eq, PluginPhrase.node, List.getElem?_map, List.getElem?_map, hmethod]
      rfl

/-! ## Numbers in definitions -/

/--
In an accepted source a field has the literals of its default and of the last option with each key,
and a method that of its last timeout. Of the tokens of these values, and of all tokens of the
source, those that are numbers have literals by their digits. In digits of the Latin script it is an
integer of exactly the written value if there is no point and the value fits into 64 bits, and else
the binary number nearest to the written value. With a digit of another script it is a text.
-/
theorem compile_numbers {source : String} {definitions : List Definition}
    (h : compile source = .ok definitions) :
    ∃ (unit : UnitPhrase) (stop : Text.Position),
      tokensOf source = .ok (tokens unit ++ [Segment.endToken stop]) ∧
      unit.nodes.map Definition.ofNode = definitions ∧
      (∀ (place : FieldPlace) (phrase : FieldPhrase), unit.field? place = some phrase →
        phrase.node.values ⊆ tokens unit ∧
        ∃ field ∈ definitions.flatMap Definition.fields, Field.ofNode phrase.node = field ∧
          field.default = phrase.node.default.map Literal.ofToken ∧
          ∀ key ∈ literalKeys, field.attribute? key =
            OptionNode.lastLiteral? key (phrase.node.options.getD [])) ∧
      (∀ (item number : Nat) (phrase : MethodPhrase), unit.method? item number = some phrase →
        phrase.node.values ⊆ tokens unit ∧
        ∃ (plugin : Plugin) (method : Method), definitions[item]? = some (.plugin plugin) ∧
          plugin.methods[number]? = some method ∧ Method.ofNode phrase.node = method ∧
          method.timeout = OptionNode.lastLiteral? "timeout" (phrase.node.options.getD [])) ∧
      ∀ token ∈ tokens unit, token.kind = .numberLiteral →
        ∃ number : WrittenNumber, token.text = String.ofList number.text ∧
          (number.IsLatin → number.Denotes (Literal.ofToken token)) ∧
          (¬number.IsLatin → Literal.ofToken token = .text token.text) := by
  obtain ⟨unit, stop, htokens, -, rfl⟩ := compile_eq_ok_iff.1 h
  refine ⟨unit, stop, htokens, rfl, ?_, ?_, fun token htoken hkind ↦
    exists_written_of_tokensOf htokens htoken hkind⟩
  · intro place phrase hphrase
    exact ⟨List.Subset.trans phrase.values_subset (UnitPhrase.tokens_field?_subset hphrase), _,
      UnitPhrase.mem_fields_of_field? hphrase, rfl, rfl,
      fun key hkey ↦ Field.attribute?_ofNode hkey phrase.node⟩
  · intro item number phrase hphrase
    obtain ⟨plugin, hplugin, hmethod⟩ := UnitPhrase.exists_of_method? hphrase
    exact ⟨List.Subset.trans phrase.values_subset (UnitPhrase.tokens_method?_subset hphrase),
      plugin, _, hplugin, hmethod, rfl, Method.timeout_ofNode phrase.node⟩

/-- A point makes a number binary, and so does a whole number that does not fit into 64 bits. -/
theorem compile_numbers_of_point :
    let large : Literal := .float (.ofRatio false (2 ^ 63) 1)
    let half : Literal := .float (.ofRatio true 1 2)
    let limited : Field := { name := "x", type := "int8", min := some half, default := some large }
    compile "schema A \x7b x int8(min = -0.5, max = 7) = 9223372036854775808 \x7d" =
      .ok [.schema ⟨"A", [{ limited with max := some (.integer 7) }]⟩] ∧
    (∃ number : WrittenNumber, number.text = "-0.5".toList ∧ number.Denotes half) ∧
    (∃ number : WrittenNumber, number.text = "7".toList ∧ number.Denotes (.integer 7)) ∧
    ∃ number : WrittenNumber, number.text = "9223372036854775808".toList ∧
      number.Denotes large := by
  intro large half limited
  have hcompile : compile "schema A \x7b x int8(min = -0.5, max = 7) = 9223372036854775808 \x7d" =
      .ok [.schema ⟨"A", [{ limited with max := some (.integer 7) }]⟩] := by
    decide +kernel
  have hinput : (tokensOf
      "schema A \x7b x int8(min = -0.5, max = 7) = 9223372036854775808 \x7d").map
        (·.filter (·.kind = .numberLiteral)) = .ok [⟨.numberLiteral, "-0.5", ⟨1, 25⟩⟩,
          ⟨.numberLiteral, "7", ⟨1, 37⟩⟩, ⟨.numberLiteral, "9223372036854775808", ⟨1, 42⟩⟩] := by
    decide +kernel
  obtain ⟨unit, stop, htokens, -, -, -, hnumbers⟩ := compile_numbers hcompile
  rw [htokens, Except.map, Except.ok.injEq] at hinput
  have hnumber {token : Token} {literal : Literal} (hkind : token.kind = .numberLiteral)
      (hmem : token ∈ (tokens unit ++ [Segment.endToken stop]).filter (·.kind = .numberLiteral))
      (hliteral : Literal.ofToken token = literal)
      (hlatin : token.text.toList.all fun c ↦ !Text.isDecimalDigit c || Decimal.isDigit c) :
      ∃ number : WrittenNumber, number.text = token.text.toList ∧ number.Denotes literal := by
    have htoken : token ∈ tokens unit := by
      refine (List.mem_append.1 (List.mem_filter.1 hmem).1).resolve_right fun hend ↦ ?_
      rw [List.mem_singleton.1 hend] at hkind
      cases hkind
    obtain ⟨number, htext, hdenotes, -⟩ := hnumbers token htoken hkind
    rw [htext, String.toList_ofList] at hlatin ⊢
    refine ⟨number, rfl, hliteral ▸ hdenotes fun c hc ↦ ?_⟩
    have hdigit := List.all_eq_true.1 hlatin c (WrittenNumber.mem_text_of_mem_digits hc)
    rwa [WrittenNumber.isDecimalDigit_of_mem_digits hc, Bool.not_true, Bool.false_or] at hdigit
  rw [hinput] at hnumber
  refine ⟨hcompile, hnumber rfl List.mem_cons_self (by decide +kernel) (by decide),
    hnumber rfl (List.mem_cons_of_mem _ List.mem_cons_self) (by decide +kernel) (by decide), ?_⟩
  exact hnumber rfl (List.mem_cons_of_mem _ (List.mem_cons_of_mem _ List.mem_cons_self))
    (by decide +kernel) (by decide)

/-- A digit of another script makes a number a text. -/
theorem compile_numbers_foreign :
    let field : Field := { name := "x", type := "int8", default := some (.text "1٣") }
    compile "schema A \x7b x int8 = 1٣ \x7d" = .ok [.schema ⟨"A", [field]⟩] ∧
    (tokensOf "schema A \x7b x int8 = 1٣ \x7d").map (·.filter (·.kind = .numberLiteral)) =
      .ok [⟨.numberLiteral, "1٣", ⟨1, 21⟩⟩] := by
  decide +kernel

end SchemaLang
