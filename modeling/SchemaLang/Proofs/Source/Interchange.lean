import SchemaLang.Proofs.Definition.RoundTrip
import SchemaLang.Proofs.Source.Accepted

/-!
# The interchange text of a source

The literals of a definition are those of tokens of the source. Numbers without a point that fit
into 64 bits, names and strings are read back from the interchange text as they were, so only
a number that is kept as a binary number can be lost on the way: one that is too large for a finite
binary number, or one whose shortest digits are read as another binary number.
-/

namespace SchemaLang

open Phrase

/-! ## Where literals come from -/

/-- A literal is that of one of some tokens. -/
def Literal.From (input : List Token) (literal : Literal) : Prop :=
  ∃ token ∈ input, literal = .ofToken token

theorem Literal.From.mono {input others : List Token} {literal : Literal}
    (h : literal.From input) (hsubset : input ⊆ others) : literal.From others := by
  obtain ⟨token, hmem, hliteral⟩ := h
  exact ⟨token, hsubset hmem, hliteral⟩

variable {input : List Token}

theorem Field.literals_withOption {field : Field} {entry : OptionNode}
    (hfield : ∀ literal ∈ field.literals, literal.From input) (hentry : entry.value ∈ input) :
    ∀ literal ∈ (field.withOption entry).literals, literal.From input := by
  have hvalue : ∀ literal ∈ some entry.literal, literal.From input := by
    rintro literal ⟨⟩
    exact ⟨entry.value, hentry, rfl⟩
  rw [Field.forall_literals] at hfield ⊢
  obtain ⟨hdefault, hmin, hmax, hencoding, hlength, hfromEnd⟩ := hfield
  unfold withOption withOption?
  split
  · exact ⟨hdefault, hvalue, hmax, hencoding, hlength, hfromEnd⟩
  · exact ⟨hdefault, hmin, hvalue, hencoding, hlength, hfromEnd⟩
  · exact ⟨hdefault, hmin, hmax, hvalue, hlength, hfromEnd⟩
  · exact ⟨hdefault, hmin, hmax, hencoding, hvalue, hfromEnd⟩
  · exact ⟨hdefault, hmin, hmax, hencoding, hlength, hvalue⟩
  · cases entry.arraySize? <;> exact ⟨hdefault, hmin, hmax, hencoding, hlength, hfromEnd⟩
  · exact ⟨hdefault, hmin, hmax, hencoding, hlength, hfromEnd⟩

theorem Field.literals_foldl_withOption {options : List OptionNode} {field : Field}
    (hoptions : ∀ entry ∈ options, entry.value ∈ input)
    (hfield : ∀ literal ∈ field.literals, literal.From input) :
    ∀ literal ∈ (options.foldl withOption field).literals, literal.From input := by
  induction options generalizing field with
  | nil => exact hfield
  | cons entry options ih =>
    rw [List.forall_mem_cons] at hoptions
    exact ih hoptions.2 (literals_withOption hfield hoptions.1)

/-- The literals of a field are those of its options and of its default. -/
theorem Field.literals_ofNode {node : FieldNode}
    (hoptions : ∀ entry ∈ node.options.getD [], entry.value ∈ input)
    (hdefault : ∀ token ∈ node.default, token ∈ input) :
    ∀ literal ∈ (Field.ofNode node).literals, literal.From input := by
  let plain : Field :=
    { name := node.name.text, type := node.type.text, optional := node.optional.isSome }
  have hplain : ∀ literal ∈ plain.literals, literal.From input :=
    fun literal hliteral ↦ absurd hliteral List.not_mem_nil
  have hfolded := literals_foldl_withOption hoptions hplain
  have hvalue : ∀ literal ∈ node.default.map Literal.ofToken, literal.From input := by
    intro literal hliteral
    obtain ⟨token, htoken, rfl⟩ := Option.map_eq_some_iff.1 hliteral
    exact ⟨token, hdefault token htoken, rfl⟩
  rw [Field.forall_literals] at hfolded ⊢
  rw [ofNode_eq]
  refine ⟨hvalue, ?_⟩
  -- Brackets behind the type change no literal.
  unfold withArray
  split <;> exact hfolded.2

/-! ## Literals of phrases -/

theorem OptionsPhrase.value_mem_tokens (p : OptionsPhrase) :
    ∀ entry ∈ p.nodes, entry.value ∈ tokens p := by
  obtain ⟨opening, entries, closing⟩ := p
  cases entries with
  | none => exact fun entry hentry ↦ absurd hentry List.not_mem_nil
  | some entries =>
    obtain ⟨first, more⟩ := entries
    have hvalue (entry : OptionPhrase) : entry.node.value ∈ tokens entry :=
      List.mem_append_right _ List.mem_cons_self
    have hentries : ∀ entry ∈ first.node :: more.map (·.2.node),
        entry.value ∈ tokens first ++ tokens more := by
      rw [List.forall_mem_cons, List.forall_mem_map]
      refine ⟨List.mem_append_left _ (hvalue first), fun next hnext ↦ ?_⟩
      exact List.mem_append_right _
        (List.mem_flatMap.2 ⟨next, hnext, List.mem_append_right _ (hvalue next.2)⟩)
    intro entry hentry
    exact List.mem_append_left _ (List.mem_append_right _ (hentries entry hentry))

theorem OptionsPhrase.value_mem_tokens_getD (p : Option OptionsPhrase) :
    ∀ entry ∈ (p.map OptionsPhrase.nodes).getD [], entry.value ∈ tokens p := by
  cases p with
  | none => exact fun entry hentry ↦ absurd hentry List.not_mem_nil
  | some p => exact p.value_mem_tokens

theorem FieldPhrase.literals_ofNode (p : FieldPhrase) :
    ∀ literal ∈ (Field.ofNode p.node).literals, literal.From (tokens p) := by
  apply Field.literals_ofNode
  · intro entry hentry
    have hmem := OptionsPhrase.value_mem_tokens_getD p.options entry hentry
    exact List.mem_append_left _ (List.mem_append_left _ (List.mem_append_right _ hmem))
  · intro token htoken
    obtain ⟨default, hdefault, rfl⟩ := Option.map_eq_some_iff.1 htoken
    have hmem : default.value.1 ∈ tokens p.default := by
      rw [hdefault]
      exact List.mem_append_right _ List.mem_cons_self
    exact List.mem_append_right _ hmem

/-- What holds of each phrase of a list holds of the tokens of the list. -/
theorem literals_of_phrases {δ α : Type} [Phrase δ] {ofPhrase : δ → α} {literals : α → List Literal}
    (h : ∀ p, ∀ literal ∈ literals (ofPhrase p), literal.From (tokens p)) (phrases : List δ) :
    ∀ literal ∈ (phrases.map ofPhrase).flatMap literals, literal.From (tokens phrases) := by
  intro literal hliteral
  obtain ⟨value, hvalue, hmem⟩ := List.mem_flatMap.1 hliteral
  obtain ⟨p, hp, rfl⟩ := List.mem_map.1 hvalue
  exact (h p literal hmem).mono fun token htoken ↦ List.mem_flatMap.2 ⟨p, hp, htoken⟩

theorem BlockPhrase.literals_ofNode (p : BlockPhrase) :
    ∀ literal ∈ (p.nodes.map Field.ofNode).flatMap Field.literals, literal.From (tokens p) := by
  have hfields := literals_of_phrases FieldPhrase.literals_ofNode p.fields
  intro literal hliteral
  rw [nodes, List.map_map] at hliteral
  exact (hfields literal hliteral).mono fun token htoken ↦
    List.mem_append_left _ (List.mem_append_right _ htoken)

theorem ParamsPhrase.literals_ofNode (p : ParamsPhrase) :
    ∀ literal ∈ (FieldSet.ofNode p.node).toList.flatMap Field.literals,
      literal.From (tokens p) := by
  cases p with
  | block block =>
    rw [ParamsPhrase.node, FieldSet.ofNode_block]
    exact block.literals_ofNode
  | named type => exact fun literal hliteral ↦ absurd hliteral List.not_mem_nil

theorem Method.literals_foldl_withOption {options : List OptionNode} {method : Method}
    (hoptions : ∀ entry ∈ options, entry.value ∈ input)
    (hmethod : ∀ literal ∈ method.literals, literal.From input) :
    ∀ literal ∈ (options.foldl withOption method).literals, literal.From input := by
  induction options generalizing method with
  | nil => exact hmethod
  | cons entry options ih =>
    rw [List.forall_mem_cons] at hoptions
    apply ih hoptions.2
    unfold withOption withOption?
    split
    · rw [Option.getD_some]
      intro literal hliteral
      rcases List.mem_append.1 hliteral with hfields | htimeout
      · exact hmethod literal (List.mem_append_left _ hfields)
      · rw [Option.toList_some, List.mem_singleton] at htimeout
        exact ⟨entry.value, hoptions.1, htimeout⟩
    · exact hmethod

theorem MethodPhrase.literals_ofNode (p : MethodPhrase) :
    ∀ literal ∈ (Method.ofNode p.node).literals, literal.From (tokens p) := by
  rw [Method.ofNode_eq]
  apply Method.literals_foldl_withOption
  · intro entry hentry
    have hmem := OptionsPhrase.value_mem_tokens_getD p.options entry hentry
    exact List.mem_append_left _ (List.mem_append_right _ hmem)
  · have hsignature : tokens p.signature ⊆ tokens p := List.subset_append_right _ _
    have hparameters : tokens p.signature.parameters ⊆ tokens p.signature := by
      cases p.signature with
      | paramsFirst parameters returns => exact List.subset_append_left _ _
      | returnsFirst returns parameters => exact List.subset_append_right _ _
    have hresults : tokens p.signature.returns.results ⊆ tokens p.signature := by
      cases p.signature with
      | paramsFirst parameters returns =>
        exact fun token htoken ↦ List.mem_append_right _ (List.mem_append_right _ htoken)
      | returnsFirst returns parameters =>
        exact fun token htoken ↦ List.mem_append_left _ (List.mem_append_right _ htoken)
    intro literal hliteral
    rw [Method.literals, Option.toList_none, List.append_nil, List.mem_append] at hliteral
    rcases hliteral with hfields | hreturns
    · exact (p.signature.parameters.literals_ofNode literal hfields).mono
        fun token htoken ↦ hsignature (hparameters htoken)
    · exact (p.signature.returns.results.literals_ofNode literal hreturns).mono
        fun token htoken ↦ hsignature (hresults htoken)

theorem ItemPhrase.literals_ofNode (p : ItemPhrase) :
    ∀ literal ∈ (Definition.ofNode p.node).literals, literal.From (tokens p) := by
  cases p with
  | schema p =>
    rw [ItemPhrase.node, Definition.ofNode_schema]
    intro literal hliteral
    exact (p.block.literals_ofNode literal hliteral).mono (List.subset_append_right _ _)
  | plugin p =>
    have hmethods := literals_of_phrases MethodPhrase.literals_ofNode p.methods
    rw [ItemPhrase.node, Definition.ofNode_plugin]
    intro literal hliteral
    have hmem : literal ∈ ((p.methods.map MethodPhrase.node).map Method.ofNode).flatMap
        Method.literals := hliteral
    rw [List.map_map] at hmem
    exact (hmethods literal hmem).mono fun token htoken ↦
      List.mem_append_left _ (List.mem_append_right _ htoken)

/-- A literal of the definitions of a source is that of a token of the source. -/
theorem exists_token_of_literal {source : String} {definitions : List Definition}
    (h : compile source = .ok definitions) (hinput : tokensOf source = .ok input) :
    ∀ literal ∈ definitions.flatMap Definition.literals, literal.From input := by
  obtain ⟨unit, p, htokens, -, rfl⟩ := compile_eq_ok_iff.1 h
  rw [hinput] at htokens
  cases htokens
  have hitems := literals_of_phrases ItemPhrase.literals_ofNode unit
  intro literal hliteral
  rw [UnitPhrase.nodes, List.map_map] at hliteral
  exact (hitems literal hliteral).mono (List.subset_append_left _ _)

/-- Only the token of a number is kept as a binary number. -/
theorem Literal.ofToken_eq_float {token : Token} {x : Binary64} (h : ofToken token = .float x) :
    token.kind = .numberLiteral ∧ ofNumber? token.text = some (.float x) := by
  unfold ofToken at h
  split at h
  case h_1 => cases h
  case h_2 hkind =>
    refine ⟨hkind, ?_⟩
    cases hnumber : ofNumber? token.text with
    | none =>
      rw [hnumber] at h
      cases h
    | some literal =>
      rw [hnumber] at h
      exact congrArg some h
  case h_3 => cases h

/--
The definitions of a source are read back from its interchange text exactly if every number that is
kept as a binary number is finite and is read from its digits as the same number. This is so if all
of these numbers are short. Each of them is one that stands in the source.
-/
theorem ofText?_spreadText_of_compile {source : String} {definitions : List Definition}
    (h : compile source = .ok definitions) :
    (Definition.ofText? (Definition.spreadText definitions) = some definitions ↔
      ∀ x, .float x ∈ definitions.flatMap Definition.literals →
        x.isFinite = true ∧ Json.numberOf? (Json.floatText x) = some (.float x)) ∧
    ((∀ x, .float x ∈ definitions.flatMap Definition.literals → x.IsShort) →
      Definition.ofText? (Definition.spreadText definitions) = some definitions) ∧
    ∃ input, tokensOf source = .ok input ∧
      ∀ x, .float x ∈ definitions.flatMap Definition.literals →
        ∃ token ∈ input, token.kind = .numberLiteral ∧
          Literal.ofNumber? token.text = some (.float x) := by
  obtain ⟨unit, p, hinput, -, -⟩ := compile_eq_ok_iff.1 h
  have hread : Definition.ofText? (Definition.spreadText definitions) = some definitions ↔
      ∀ x, .float x ∈ definitions.flatMap Definition.literals →
        x.isFinite = true ∧ Json.numberOf? (Json.floatText x) = some (.float x) := by
    rw [Definition.ofText?_spreadText_iff]
    constructor
    · intro hread x hx
      have hfloat := hread _ hx
      exact ⟨Literal.isFinite_of_readsBack hfloat, (Literal.readsBack_float_iff x).1 hfloat⟩
    · intro hfloats literal hliteral
      by_contra hlost
      obtain ⟨x, rfl⟩ := Literal.exists_float_of_not_readsBack hlost
      exact hlost ((Literal.readsBack_float_iff x).2 (hfloats x hliteral).2)
  refine ⟨hread, fun hshort ↦ ?_, _, hinput, fun x hx ↦ ?_⟩
  · rw [hread]
    intro x hx
    exact ⟨Binary64.isFinite_of_isShort (hshort x hx),
      Json.numberOf?_floatText_of_isShort (hshort x hx)⟩
  · obtain ⟨token, htoken, hliteral⟩ := exists_token_of_literal h hinput _ hx
    exact ⟨token, htoken, Literal.ofToken_eq_float hliteral.symm⟩

/-- A name, an integer and a zero with a minus are read back. -/
theorem ofText?_spreadText_of_compile_negative_zero :
    ∃ definitions,
      compile "schema A \x7b x int8 (min = -5, max = -0.0) = n \x7d" = .ok definitions ∧
      Definition.ofText? (Definition.spreadText definitions) = some definitions := by
  have hcompile : compile "schema A \x7b x int8 (min = -5, max = -0.0) = n \x7d" =
      .ok [.schema ⟨"A", [
        { name := "x", type := "int8", default := some (.text "n"), min := some (.integer (-5)),
          max := some (.float (.ofRank true 0)) }]⟩] := by
    decide +kernel
  refine ⟨_, hcompile, (ofText?_spreadText_of_compile hcompile).1.2 fun x hx ↦ ?_⟩
  have hzero : x = .ofRank true 0 := by
    simpa [Definition.literals, Field.literals, Field.literalMembers] using hx
  rw [hzero]
  exact ⟨by decide, (Literal.readsBack_float_iff _).1 (by decide +kernel)⟩

/-- Three times a power of ten is read as the number below it, since the power is rounded first. -/
theorem ofText?_spreadText_of_compile_rounded_power :
    ∃ definitions, compile "schema A \x7b x int8 = 300000000000000000000000.0 \x7d" =
        .ok definitions ∧
      Definition.ofText? (Definition.spreadText definitions) ≠ some definitions := by
  have hcompile : compile "schema A \x7b x int8 = 300000000000000000000000.0 \x7d" =
      .ok [.schema ⟨"A", [
        { name := "x", type := "int8",
          default := some (.float (.ofRatio false (3 * 10 ^ 23) 1)) }]⟩] := by
    decide +kernel
  refine ⟨_, hcompile, fun hread ↦ ?_⟩
  rw [Definition.ofText?_spreadText_iff] at hread
  have hlost : ¬(Literal.float (.ofRatio false (3 * 10 ^ 23) 1)).ReadsBack := by
    decide +kernel
  exact hlost (hread _ List.mem_cons_self)

end SchemaLang
