import SchemaLang.Proofs.Tree.Reading

/-!
# Readers of the rules

The reader of each rule reads the phrases of that rule. The statements follow the grammar from the
options of a field up to the items of a source, and the last one, `items_eq_ok_iff`, says that the
items of a list of tokens are the trees of a unit that is written with these tokens.
-/

namespace SchemaLang

open Phrase

namespace Phrase

/-! ## The tokens of a phrase in front of others -/

theorem option_append (p : OptionPhrase) (rest : List Token) :
    tokens p ++ rest = tokens p.key ++ (tokens p.equals ++ (tokens p.value ++ rest)) := rfl

theorem options_append (p : OptionsPhrase) (rest : List Token) :
    tokens p ++ rest = tokens p.opening ++ (tokens p.entries ++ (tokens p.closing ++ rest)) := by
  simp only [tokens, List.append_assoc]

theorem array_append (p : ArrayPhrase) (rest : List Token) :
    tokens p ++ rest = tokens p.opening ++ (tokens p.size ++ (tokens p.closing ++ rest)) := by
  simp only [tokens, List.append_assoc]

theorem field_append (p : FieldPhrase) (rest : List Token) :
    tokens p ++ rest = tokens p.name ++ (tokens p.optional ++ (tokens p.type ++
      (tokens p.options ++ (tokens p.array ++ (tokens p.default ++ rest))))) := by
  simp only [tokens, List.append_assoc]

theorem block_append (p : BlockPhrase) (rest : List Token) :
    tokens p ++ rest = tokens p.opening ++ (tokens p.fields ++ (tokens p.closing ++ rest)) := by
  simp only [tokens, List.append_assoc]

theorem paramsFirst_append (parameters : ParamsPhrase) (returns : ReturnsPhrase)
    (rest : List Token) : tokens (SignaturePhrase.paramsFirst parameters returns) ++ rest =
      tokens parameters ++ (tokens returns ++ rest) :=
  List.append_assoc ..

theorem returnsFirst_append (returns : ReturnsPhrase) (parameters : ParamsPhrase)
    (rest : List Token) : tokens (SignaturePhrase.returnsFirst returns parameters) ++ rest =
      tokens returns ++ (tokens parameters ++ rest) :=
  List.append_assoc ..

theorem method_append (p : MethodPhrase) (rest : List Token) :
    tokens p ++ rest = tokens p.word ++ (tokens p.name ++ (tokens p.options ++
      (tokens p.signature ++ rest))) := by
  simp only [tokens, List.append_assoc]

theorem schema_append (p : SchemaPhrase) (rest : List Token) :
    tokens p ++ rest = tokens p.word ++ (tokens p.name ++ (tokens p.block ++ rest)) := rfl

theorem plugin_append (p : PluginPhrase) (rest : List Token) :
    tokens p ++ rest = tokens p.word ++ (tokens p.first ++ (tokens p.more ++ (tokens p.asName ++
      (tokens p.opening ++ (tokens p.methods ++ (tokens p.closing ++ rest)))))) := by
  simp only [tokens, List.append_assoc]

end Phrase

namespace TokenReader

/-! ## Options, brackets and default values -/

theorem reads_optionEntry : Reads optionEntry OptionPhrase.node [] where
  complete p rest _ := by
    rw [option_append]
    refine ((reads_take _ _).bind p.key (startsWithNone_nil _) _).trans ?_
    refine ((reads_take _ _).bind p.equals (startsWithNone_nil _) _).trans ?_
    exact (reads_literal _).bind p.value (startsWithNone_nil _) _
  sound hread := by
    obtain ⟨key, _, rfl, hequals⟩ := (reads_take _ _).of_bind hread
    obtain ⟨equals, _, rfl, hvalue⟩ := (reads_take _ _).of_bind hequals
    obtain ⟨value, _, rfl, hreturn⟩ := (reads_literal _).of_bind hvalue
    cases hreturn
    exact ⟨⟨key, equals, value⟩, rfl, rfl⟩

theorem reads_furtherOption :
    Reads furtherOption (fun pair : Terminal .comma × OptionPhrase ↦ pair.2.node) [] :=
  reads_optionEntry.behind _ _

theorem headed_furtherOption : Headed (Terminal .comma × OptionPhrase) .comma :=
  headed_pair (headed_terminal .comma)

theorem reads_furtherOptions :
    Reads (many .comma furtherOption)
      (List.map fun pair : Terminal .comma × OptionPhrase ↦ pair.2.node) [.comma] :=
  reads_furtherOption.many headed_furtherOption List.not_mem_nil

theorem headed_option : Headed OptionPhrase .identifier :=
  fun p ↦ ⟨p.key, _, rfl⟩

theorem reads_options : Reads options OptionsPhrase.nodes [] where
  complete p rest _ := by
    rw [options_append]
    obtain ⟨opening, entries, closing⟩ := p
    have hclosing := (headed_terminal .rightParen).startsWith closing rest
    refine ((reads_take _ _).bind opening (startsWithNone_nil _) _).trans ?_
    cases entries with
    | none =>
      refine (if_pos hclosing).trans ?_
      exact (reads_take _ _).bind closing (startsWithNone_nil _) _
    | some entries =>
      obtain ⟨first, more⟩ := entries
      have hfirst : StartsWithNone [.rightParen]
          (tokens first ++ (tokens more ++ (tokens closing ++ rest))) :=
        startsWithNone_of_notMem (headed_option.startsWith first _) (by decide)
      have hcomma : StartsWithNone [.comma] (tokens closing ++ rest) :=
        startsWithNone_of_notMem hclosing (by decide)
      rw [tokens_some, tokens_pair, List.append_assoc]
      refine (if_neg (Bool.eq_false_iff.1 hfirst.head)).trans ?_
      refine (reads_optionEntry.bind first (startsWithNone_nil _) _).trans ?_
      refine (reads_furtherOptions.bind more hcomma _).trans ?_
      exact (reads_take _ _).bind closing (startsWithNone_nil _) _
  sound hread := by
    obtain ⟨opening, _, rfl, hentries⟩ := (reads_take _ _).of_bind hread
    dsimp only at hentries
    split at hentries
    · obtain ⟨closing, _, rfl, hreturn⟩ := (reads_take _ _).of_bind hentries
      cases hreturn
      exact ⟨⟨opening, none, closing⟩, rfl, rfl⟩
    · obtain ⟨first, _, rfl, hmore⟩ := reads_optionEntry.of_bind hentries
      obtain ⟨more, _, rfl, hclosing⟩ := reads_furtherOptions.of_bind hmore
      obtain ⟨closing, _, rfl, hreturn⟩ := (reads_take _ _).of_bind hclosing
      cases hreturn
      refine ⟨⟨opening, some (first, more), closing⟩, rfl, ?_⟩
      rw [options_append, tokens_some, tokens_pair, List.append_assoc]

theorem headed_options : Headed OptionsPhrase .leftParen :=
  fun p ↦ ⟨p.opening, _, rfl⟩

theorem isArraySize_iff {text : String} :
    isArraySize text = true ↔ ∃ size, readUnsigned64? text = some size ∧ 0 < size := by
  rw [isArraySize, Option.any_eq_true]
  simp only [decide_eq_true_eq]

theorem reads_array : Reads array ArrayPhrase.node [] where
  complete p rest _ := by
    rw [array_append]
    obtain ⟨opening, size, closing⟩ := p
    have hclosing := (headed_terminal .rightBracket).startsWith closing rest
    refine ((reads_take _ _).bind opening (startsWithNone_nil _) _).trans ?_
    cases size with
    | none =>
      have hnumber : StartsWithNone [.numberLiteral] (tokens closing ++ rest) :=
        startsWithNone_of_notMem hclosing (by decide)
      have hnone := takeIf_tokens (none : Option (Terminal .numberLiteral)) hnumber.head
      rw [tokens_none, List.nil_append] at hnone ⊢
      dsimp only
      rw [hnone]
      exact (reads_take _ _).bind closing (startsWithNone_nil _) _
    | some size =>
      have hsize : takeIf .numberLiteral (tokens (some size) ++ (tokens closing ++ rest)) =
          (some size.1, tokens closing ++ rest) := if_pos size.2.1
      dsimp only
      rw [hsize]
      refine (if_pos (isArraySize_iff.2 size.2.2)).trans ?_
      exact (reads_take _ _).bind closing (startsWithNone_nil _) _
  sound hread := by
    obtain ⟨opening, behind, rfl, hsize⟩ := (reads_take _ _).of_bind hread
    obtain ⟨⟨number, rest⟩, hnumber⟩ : ∃ pair, takeIf .numberLiteral behind = pair := ⟨_, rfl⟩
    obtain ⟨terminal, rfl, rfl⟩ := takeIf_sound hnumber
    simp only [hnumber] at hsize
    cases terminal with
    | none =>
      obtain ⟨closing, _, rfl, hreturn⟩ := (reads_take _ _).of_bind hsize
      cases hreturn
      exact ⟨⟨opening, none, closing⟩, rfl, rfl⟩
    | some number =>
      dsimp only [Option.map_some] at hsize
      split at hsize
      case isTrue harray =>
        obtain ⟨closing, _, rfl, hreturn⟩ := (reads_take _ _).of_bind hsize
        cases hreturn
        exact ⟨⟨opening, some ⟨number.1, number.2, isArraySize_iff.1 harray⟩, closing⟩, rfl, rfl⟩
      case isFalse => simp at hsize

theorem headed_array : Headed ArrayPhrase .leftBracket :=
  fun p ↦ ⟨p.opening, _, rfl⟩

theorem reads_defaultValue : Reads defaultValue (fun p : DefaultPhrase ↦ p.value.1) [] :=
  ((reads_literal _).behind _ _).congr (fun pair ↦ ⟨pair.1, pair.2⟩)
    (fun p ↦ ⟨(p.equals, p.value), rfl⟩) (fun _ ↦ rfl) fun _ ↦ rfl

theorem headed_default : Headed DefaultPhrase .equals :=
  fun p ↦ ⟨p.equals, _, rfl⟩

/-! ## Fields -/

/-- The kinds that would be taken for more of a field. -/
def fieldStops : List TokenKind := [.leftParen, .leftBracket, .equals]

theorem headed_field : Headed FieldPhrase .identifier :=
  fun p ↦ ⟨p.name, _, rfl⟩

theorem reads_field : Reads field FieldPhrase.node fieldStops where
  complete p rest hrest := by
    have hdefault : StartsWithNone [.equals] rest := hrest.tail.tail
    have harray : StartsWithNone [.leftBracket] (tokens p.default ++ rest) :=
      headed_default.startsWithNone_option (by decide) p.default
        (.cons hrest.tail.head (startsWithNone_nil _))
    have hoptions : StartsWithNone [.leftParen]
        (tokens p.array ++ (tokens p.default ++ rest)) :=
      headed_array.startsWithNone_option (by decide) p.array
        (headed_default.startsWithNone_option (by decide) p.default
          (.cons hrest.head (startsWithNone_nil _)))
    have hmark (behind : List Token) : StartsWithNone [.questionMark] (tokens p.type ++ behind) :=
      startsWithNone_of_notMem ((headed_terminal .identifier).startsWith p.type behind) (by decide)
    rw [field_append]
    refine ((reads_take _ _).bind p.name (startsWithNone_nil _) _).trans ?_
    dsimp only
    rw [takeIf_tokens p.optional (hmark _).head]
    refine ((reads_take _ _).bind p.type (startsWithNone_nil _) _).trans ?_
    refine ((reads_options.optional headed_options).bind p.options hoptions _).trans ?_
    refine ((reads_array.optional headed_array).bind p.array harray _).trans ?_
    exact (reads_defaultValue.optional headed_default).bind p.default hdefault _
  sound hread := by
    obtain ⟨name, behind, rfl, hoptional⟩ := (reads_take _ _).of_bind hread
    obtain ⟨⟨mark, rest⟩, hmark⟩ : ∃ pair, takeIf .questionMark behind = pair := ⟨_, rfl⟩
    obtain ⟨optional, rfl, rfl⟩ := takeIf_sound hmark
    simp only [hmark] at hoptional
    obtain ⟨type, _, rfl, hoptions⟩ := (reads_take _ _).of_bind hoptional
    obtain ⟨options, _, rfl, harray⟩ := (reads_options.optional headed_options).of_bind hoptions
    obtain ⟨array, _, rfl, hdefault⟩ := (reads_array.optional headed_array).of_bind harray
    obtain ⟨default, _, rfl, hreturn⟩ :=
      (reads_defaultValue.optional headed_default).of_bind hdefault
    cases hreturn
    refine ⟨⟨name, optional, type, options, array, default⟩, rfl, ?_⟩
    rw [field_append]

theorem reads_fields :
    Reads (many .identifier field) (List.map FieldPhrase.node) (.identifier :: fieldStops) :=
  reads_field.many headed_field (by decide)

theorem reads_fieldBlock : Reads fieldBlock BlockPhrase.nodes [] where
  complete p rest _ := by
    have hclosing : StartsWithNone (.identifier :: fieldStops) (tokens p.closing ++ rest) :=
      startsWithNone_of_notMem ((headed_terminal .rightBrace).startsWith p.closing rest) (by decide)
    rw [block_append]
    refine ((reads_take _ _).bind p.opening (startsWithNone_nil _) _).trans ?_
    refine (reads_fields.bind p.fields hclosing _).trans ?_
    exact (reads_take _ _).bind p.closing (startsWithNone_nil _) _
  sound hread := by
    obtain ⟨opening, _, rfl, hfields⟩ := (reads_take _ _).of_bind hread
    obtain ⟨fields, _, rfl, hclosing⟩ := reads_fields.of_bind hfields
    obtain ⟨closing, _, rfl, hreturn⟩ := (reads_take _ _).of_bind hclosing
    cases hreturn
    refine ⟨⟨opening, fields, closing⟩, rfl, ?_⟩
    rw [block_append]

theorem headed_block : Headed BlockPhrase .leftBrace :=
  fun p ↦ ⟨p.opening, _, rfl⟩

/-! ## Methods -/

theorem reads_params (expected : Expectation) :
    Reads (params expected) ParamsPhrase.node [] where
  complete p rest _ := by
    cases p with
    | block p =>
      refine (if_pos (headed_block.startsWith p rest)).trans ?_
      exact congrArg _ (reads_fieldBlock.complete p rest (startsWithNone_nil _))
    | named type =>
      have htype : StartsWithNone [.leftBrace] (tokens type ++ rest) :=
        startsWithNone_of_notMem ((headed_terminal .identifier).startsWith type rest) (by decide)
      refine (if_neg (Bool.eq_false_iff.1 htype.head)).trans ?_
      exact congrArg _ ((reads_take _ expected).complete type rest (startsWithNone_nil _))
  sound hread := by
    rw [params] at hread
    split at hread
    · obtain ⟨⟨_, _⟩, hblock, heq⟩ := map_eq_ok.1 hread
      obtain ⟨p, rfl, rfl⟩ := reads_fieldBlock.sound hblock
      cases heq
      exact ⟨.block p, rfl, rfl⟩
    · obtain ⟨⟨_, _⟩, htype, heq⟩ := map_eq_ok.1 hread
      obtain ⟨type, rfl, rfl⟩ := (reads_take _ _).sound htype
      cases heq
      exact ⟨.named type, rfl, rfl⟩

/-- Parameters start with a brace or a name. -/
theorem startsWithNone_params (p : ParamsPhrase) (rest : List Token) {kinds : List TokenKind}
    (hbrace : TokenKind.leftBrace ∉ kinds) (hname : TokenKind.identifier ∉ kinds) :
    StartsWithNone kinds (tokens p ++ rest) := by
  cases p with
  | block p => exact startsWithNone_of_notMem (headed_block.startsWith p rest) hbrace
  | named type =>
    exact startsWithNone_of_notMem ((headed_terminal .identifier).startsWith type rest) hname

theorem reads_returns :
    Reads TokenReader.returns (fun p : ReturnsPhrase ↦ p.results.node) [] :=
  ((reads_params _).behind _ _).congr (fun pair ↦ ⟨pair.1, pair.2⟩)
    (fun p ↦ ⟨(p.word, p.results), rfl⟩) (fun _ ↦ rfl) fun _ ↦ rfl

theorem headed_returns : Headed ReturnsPhrase .returns :=
  fun p ↦ ⟨p.word, _, rfl⟩

/-- A signature starts with the word `returns`, a brace or a name. -/
theorem startsWithNone_signature (p : SignaturePhrase) (rest : List Token)
    {kinds : List TokenKind} (hbrace : TokenKind.leftBrace ∉ kinds)
    (hname : TokenKind.identifier ∉ kinds) (hreturns : TokenKind.returns ∉ kinds) :
    StartsWithNone kinds (tokens p ++ rest) := by
  cases p with
  | paramsFirst parameters returns =>
    rw [paramsFirst_append]
    exact startsWithNone_params parameters _ hbrace hname
  | returnsFirst returns parameters =>
    rw [returnsFirst_append]
    exact startsWithNone_of_notMem (headed_returns.startsWith returns _) hreturns

theorem reads_optionalOptions :
    Reads (optional .leftParen options) (Option.map OptionsPhrase.nodes) [.leftParen] :=
  reads_options.optional headed_options

theorem reads_method : Reads method MethodPhrase.node [] where
  complete p rest _ := by
    obtain ⟨word, name, options, signature⟩ := p
    have hoptions : StartsWithNone [.leftParen] (tokens signature ++ rest) :=
      startsWithNone_signature signature rest (by decide) (by decide) (by decide)
    rw [method_append]
    refine ((reads_take _ _).bind word (startsWithNone_nil _) _).trans ?_
    refine ((reads_take _ _).bind name (startsWithNone_nil _) _).trans ?_
    refine (reads_optionalOptions.bind options hoptions _).trans ?_
    cases signature with
    | paramsFirst parameters returns =>
      have hreturns : StartsWithNone [.returns] (tokens parameters ++ (tokens returns ++ rest)) :=
        startsWithNone_params parameters _ (by decide) (by decide)
      rw [paramsFirst_append]
      refine (if_neg (Bool.eq_false_iff.1 hreturns.head)).trans ?_
      refine ((reads_params _).bind parameters (startsWithNone_nil _) _).trans ?_
      exact reads_returns.bind returns (startsWithNone_nil _) _
    | returnsFirst returns parameters =>
      rw [returnsFirst_append]
      refine (if_pos (headed_returns.startsWith returns _)).trans ?_
      refine (reads_returns.bind returns (startsWithNone_nil _) _).trans ?_
      exact (reads_params _).bind parameters (startsWithNone_nil _) _
  sound hread := by
    obtain ⟨word, _, rfl, hname⟩ := (reads_take _ _).of_bind hread
    obtain ⟨name, _, rfl, hoptions⟩ := (reads_take _ _).of_bind hname
    obtain ⟨options, _, rfl, hsignature⟩ := reads_optionalOptions.of_bind hoptions
    dsimp only at hsignature
    split at hsignature
    · obtain ⟨returns, _, rfl, hparameters⟩ := reads_returns.of_bind hsignature
      obtain ⟨parameters, _, rfl, hreturn⟩ := (reads_params _).of_bind hparameters
      cases hreturn
      refine ⟨⟨word, name, options, .returnsFirst returns parameters⟩, rfl, ?_⟩
      rw [method_append, returnsFirst_append]
    · obtain ⟨parameters, _, rfl, hreturns⟩ := (reads_params _).of_bind hsignature
      obtain ⟨returns, _, rfl, hreturn⟩ := reads_returns.of_bind hreturns
      cases hreturn
      refine ⟨⟨word, name, options, .paramsFirst parameters returns⟩, rfl, ?_⟩
      rw [method_append, paramsFirst_append]

theorem headed_method : Headed MethodPhrase .method :=
  fun p ↦ ⟨p.word, _, rfl⟩

/-! ## Items -/

theorem reads_schema : Reads TokenReader.schema SchemaPhrase.node [] where
  complete p rest _ := by
    rw [schema_append]
    refine ((reads_take _ _).bind p.word (startsWithNone_nil _) _).trans ?_
    refine ((reads_take _ _).bind p.name (startsWithNone_nil _) _).trans ?_
    exact reads_fieldBlock.bind p.block (startsWithNone_nil _) _
  sound hread := by
    obtain ⟨word, _, rfl, hname⟩ := (reads_take _ _).of_bind hread
    obtain ⟨name, _, rfl, hblock⟩ := (reads_take _ _).of_bind hname
    obtain ⟨block, _, rfl, hreturn⟩ := reads_fieldBlock.of_bind hblock
    cases hreturn
    exact ⟨⟨word, name, block⟩, rfl, rfl⟩

theorem reads_furtherSegment :
    Reads furtherSegment (fun pair : Terminal .dot × Terminal .identifier ↦ pair.2.1) [] :=
  (reads_take _ _).behind _ _

theorem headed_furtherSegment : Headed (Terminal .dot × Terminal .identifier) .dot :=
  headed_pair (headed_terminal .dot)

theorem reads_furtherSegments :
    Reads (many .dot furtherSegment)
      (List.map fun pair : Terminal .dot × Terminal .identifier ↦ pair.2.1) [.dot] :=
  reads_furtherSegment.many headed_furtherSegment List.not_mem_nil

theorem reads_asName :
    Reads TokenReader.asName
      (fun pair : Terminal .asWord × Terminal .identifier ↦ pair.2.1) [] :=
  (reads_take _ _).behind _ _

theorem headed_asName : Headed (Terminal .asWord × Terminal .identifier) .asWord :=
  headed_pair (headed_terminal .asWord)

theorem reads_methods : Reads (many .method method) (List.map MethodPhrase.node) [.method] :=
  reads_method.many headed_method List.not_mem_nil

theorem reads_plugin : Reads TokenReader.plugin PluginPhrase.node [] where
  complete p rest _ := by
    obtain ⟨word, first, more, asName, opening, methods, closing⟩ := p
    have hclosing : StartsWithNone [.method] (tokens closing ++ rest) :=
      startsWithNone_of_notMem ((headed_terminal .rightBrace).startsWith closing rest) (by decide)
    have hopening {kinds : List TokenKind} (hkinds : TokenKind.leftBrace ∉ kinds) :
        StartsWithNone kinds (tokens opening ++ (tokens methods ++ (tokens closing ++ rest))) :=
      startsWithNone_of_notMem ((headed_terminal .leftBrace).startsWith opening _) hkinds
    have hasName : StartsWithNone [.dot]
        (tokens asName ++ (tokens opening ++ (tokens methods ++ (tokens closing ++ rest)))) :=
      headed_asName.startsWithNone_option (by decide) asName (hopening (by decide))
    rw [plugin_append]
    refine ((reads_take _ _).bind word (startsWithNone_nil _) _).trans ?_
    refine ((reads_take _ _).bind first (startsWithNone_nil _) _).trans ?_
    refine (reads_furtherSegments.bind more hasName _).trans ?_
    refine ((reads_asName.optional headed_asName).bind asName (hopening (by decide)) _).trans ?_
    refine ((reads_take _ _).bind opening (startsWithNone_nil _) _).trans ?_
    refine (reads_methods.bind methods hclosing _).trans ?_
    exact (reads_take _ _).bind closing (startsWithNone_nil _) _
  sound hread := by
    obtain ⟨word, _, rfl, hfirst⟩ := (reads_take _ _).of_bind hread
    obtain ⟨first, _, rfl, hmore⟩ := (reads_take _ _).of_bind hfirst
    obtain ⟨more, _, rfl, hasName⟩ := reads_furtherSegments.of_bind hmore
    obtain ⟨asName, _, rfl, hopening⟩ := (reads_asName.optional headed_asName).of_bind hasName
    obtain ⟨opening, _, rfl, hmethods⟩ := (reads_take _ _).of_bind hopening
    obtain ⟨methods, _, rfl, hclosing⟩ := reads_methods.of_bind hmethods
    obtain ⟨closing, _, rfl, hreturn⟩ := (reads_take _ _).of_bind hclosing
    cases hreturn
    refine ⟨⟨word, first, more, asName, opening, methods, closing⟩, rfl, ?_⟩
    rw [plugin_append]

theorem headed_schema : Headed SchemaPhrase .schema :=
  fun p ↦ ⟨p.word, _, rfl⟩

theorem headed_plugin : Headed PluginPhrase .plugin :=
  fun p ↦ ⟨p.word, _, rfl⟩

theorem reads_item : Reads item ItemPhrase.node [] where
  complete p rest _ := by
    cases p with
    | schema p =>
      refine (if_pos (headed_schema.startsWith p rest)).trans ?_
      exact congrArg _ (reads_schema.complete p rest (startsWithNone_nil _))
    | plugin p =>
      have hschema : StartsWithNone [.schema] (tokens p ++ rest) :=
        startsWithNone_of_notMem (headed_plugin.startsWith p rest) (by decide)
      refine (if_neg (Bool.eq_false_iff.1 hschema.head)).trans ?_
      refine (if_pos (headed_plugin.startsWith p rest)).trans ?_
      exact congrArg _ (reads_plugin.complete p rest (startsWithNone_nil _))
  sound hread := by
    rw [item] at hread
    split at hread
    · obtain ⟨⟨_, _⟩, hschema, heq⟩ := map_eq_ok.1 hread
      obtain ⟨p, rfl, rfl⟩ := reads_schema.sound hschema
      cases heq
      exact ⟨.schema p, rfl, rfl⟩
    · split at hread
      · obtain ⟨⟨_, _⟩, hplugin, heq⟩ := map_eq_ok.1 hread
        obtain ⟨p, rfl, rfl⟩ := reads_plugin.sound hplugin
        cases heq
        exact ⟨.plugin p, rfl, rfl⟩
      · simp at hread

/-- An item is written with at least one token. -/
theorem length_item_pos (p : ItemPhrase) : 0 < (tokens p).length := by
  cases p with
  | schema p => exact headed_schema.length_pos p
  | plugin p => exact headed_plugin.length_pos p

/-- One more item in front of others. -/
theorem items_item_append (p : ItemPhrase) (rest : List Token) :
    items (tokens p ++ rest) = (items rest).map (p.node :: ·) := by
  have hpos := length_item_pos p
  have hne : tokens p ++ rest ≠ [] := by
    rw [← List.length_pos_iff, List.length_append]
    omega
  have hlength : rest.length < (tokens p ++ rest).length := by
    rw [List.length_append]
    omega
  rw [items, if_neg hne, reads_item.complete p rest (startsWithNone_nil _)]
  exact if_pos hlength

theorem items_unit (unit : UnitPhrase) : items (tokens unit) = .ok unit.nodes := by
  induction unit with
  | nil => rw [tokens_nil, items, if_pos rfl]; rfl
  | cons p unit ih =>
    rw [tokens_cons, items_item_append, ih]
    rfl

theorem items_sound {input : List Token} {nodes : List ItemNode} (h : items input = .ok nodes) :
    ∃ unit : UnitPhrase, unit.nodes = nodes ∧ tokens unit = input := by
  fun_induction items input generalizing nodes with
  | case1 =>
    cases h
    exact ⟨[], rfl, rfl⟩
  | case2 input hne refusal hitem => simp at h
  | case3 input hne node rest hitem hlength ih =>
    obtain ⟨more, hmore, rfl⟩ := map_eq_ok.1 h
    obtain ⟨p, rfl, rfl⟩ := reads_item.sound hitem
    obtain ⟨unit, rfl, rfl⟩ := ih hmore
    exact ⟨p :: unit, rfl, rfl⟩
  | case4 input hne node rest hitem hlength =>
    -- The reader of an item takes at least one token.
    obtain ⟨p, rfl, rfl⟩ := reads_item.sound hitem
    have hpos := length_item_pos p
    rw [List.length_append] at hlength
    omega

/-- Tokens are read as the items of a unit exactly when the unit is written with them. -/
theorem items_eq_ok_iff {input : List Token} {nodes : List ItemNode} :
    items input = .ok nodes ↔ ∃ unit : UnitPhrase, unit.nodes = nodes ∧ tokens unit = input := by
  constructor
  · exact items_sound
  · rintro ⟨unit, rfl, rfl⟩
    exact items_unit unit

end TokenReader

end SchemaLang
