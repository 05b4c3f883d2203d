import SchemaLang.Proofs.Tree.Rules

/-!
# Where readers refuse

A refusal inside a rule is the refusal of every rule around it, whatever phrases were read before.
The statements follow the grammar from a token that no field goes on with up to the items of a
source.
-/

namespace SchemaLang.TokenReader

open Phrase

theorem take_refused {kind : TokenKind} (expected : Expectation) {token : Token} (rest : List Token)
    (h : token.kind ≠ kind) :
    take kind expected (token :: rest) = .error (.unexpected expected (token :: rest)) :=
  if_neg h

theorem many_refused {δ α : Type} [Phrase δ] {reader : TokenReader α} {node : δ → α}
    {stops : List TokenKind} {head : TokenKind} (h : Reads reader node stops)
    (hhead : Headed δ head) (hstops : head ∉ stops) (phrases : List δ) {input : List Token}
    {refusal : Refusal} (hstart : startsWith head input = true)
    (hinput : reader input = .error refusal) :
    many head reader (tokens phrases ++ input) = .error refusal := by
  have hnone := startsWithNone_of_notMem hstart hstops
  induction phrases with
  | nil => rw [tokens_nil, List.nil_append, many, if_pos hstart, hinput]
  | cons phrase phrases ih =>
    have hnext := hhead.startsWithNone_list hstops phrases hnone
    rw [tokens_cons, List.append_assoc, many_tokens_append h hhead phrase hnext, ih, map_error]

/-! ## Fields -/

/-- Behind some fields of a block only a name or a closing brace goes on. -/
theorem fieldBlock_refused_name (opening : Terminal .leftBrace) (fields : List FieldPhrase)
    {token : Token} (rest : List Token)
    (hkind : token.kind ∉ TokenKind.rightBrace :: .identifier :: fieldStops) :
    fieldBlock (tokens opening ++ (tokens fields ++ token :: rest)) =
      .error (.unexpected .fieldOrClosingBrace (token :: rest)) := by
  rw [List.mem_cons, not_or] at hkind
  have hstart : startsWith token.kind (token :: rest) = true := by
    rw [startsWith_cons, decide_eq_true_eq]
  have hnone := startsWithNone_of_notMem hstart hkind.2
  refine ((reads_take _ _).bind opening (startsWithNone_nil _) _).trans ?_
  refine (reads_fields.bind fields hnone _).trans ?_
  dsimp only
  rw [take_refused _ _ hkind.1, error_bind]

/-- Behind the name of a field and its question mark only a type goes on. -/
theorem fieldBlock_refused_type (opening : Terminal .leftBrace) (fields : List FieldPhrase)
    (name : Terminal .identifier) (optional : Option (Terminal .questionMark)) {token : Token}
    (rest : List Token) (hkind : token.kind ∉ [TokenKind.identifier, .questionMark]) :
    fieldBlock (tokens opening ++ (tokens fields ++ (tokens name ++ (tokens optional ++
      token :: rest)))) = .error (.unexpected .fieldType (token :: rest)) := by
  rw [List.mem_cons, not_or, List.mem_singleton] at hkind
  have hmark : startsWith .questionMark (token :: rest) = false := by
    rw [startsWith_cons, decide_eq_false_iff_not]
    exact hkind.2
  have hfield : field (tokens name ++ (tokens optional ++ token :: rest)) =
      .error (.unexpected .fieldType (token :: rest)) := by
    refine ((reads_take _ _).bind name (startsWithNone_nil _) _).trans ?_
    dsimp only
    rw [takeIf_tokens optional hmark]
    dsimp only
    rw [take_refused _ _ hkind.1, error_bind]
  have hname := (headed_terminal .identifier).startsWith name (tokens optional ++ token :: rest)
  have hfields := many_refused reads_field headed_field (by decide) fields hname hfield
  refine ((reads_take _ _).bind opening (startsWithNone_nil _) _).trans ?_
  dsimp only
  rw [hfields, error_bind]

/-- A number between the brackets of a field is refused if it is no array size. -/
theorem field_refused_size (name : Terminal .identifier)
    (optional : Option (Terminal .questionMark)) (type : Terminal .identifier)
    (opening : Terminal .leftBracket) {number : Token} (rest : List Token)
    (hkind : number.kind = .numberLiteral) (hsize : isArraySize number.text = false) :
    field (tokens name ++ (tokens optional ++ (tokens type ++ (tokens opening ++
      number :: rest)))) = .error (.arraySize number) := by
  have hmark : StartsWithNone [.questionMark] (tokens type ++ (tokens opening ++ number :: rest)) :=
    startsWithNone_of_notMem ((headed_terminal .identifier).startsWith type _) (by decide)
  have hbracket : startsWith .leftBracket (tokens opening ++ number :: rest) = true :=
    (headed_terminal .leftBracket).startsWith opening _
  have hoptions : StartsWithNone [.leftParen] (tokens opening ++ number :: rest) :=
    startsWithNone_of_notMem hbracket (by decide)
  have hnumber : takeIf .numberLiteral (number :: rest) = (some number, rest) := if_pos hkind
  have harray : array (tokens opening ++ number :: rest) = .error (.arraySize number) := by
    refine ((reads_take _ _).bind opening (startsWithNone_nil _) _).trans ?_
    dsimp only
    rw [hnumber]
    exact if_neg (Bool.eq_false_iff.1 hsize)
  refine ((reads_take _ _).bind name (startsWithNone_nil _) _).trans ?_
  dsimp only
  rw [takeIf_tokens optional hmark.head]
  refine ((reads_take _ _).bind type (startsWithNone_nil _) _).trans ?_
  refine (reads_optionalOptions.bind none hoptions _).trans ?_
  dsimp only
  rw [TokenReader.optional, if_pos hbracket, harray, map_error, error_bind]

/-! ## Methods and items -/

section Refused

variable {input : List Token} {refusal : Refusal}

theorem params_refused (expected : Expectation) (hstart : startsWith .leftBrace input = true)
    (h : fieldBlock input = .error refusal) : params expected input = .error refusal := by
  rw [params, if_pos hstart, h, map_error]

theorem returns_refused (word : Terminal .returns) (hstart : startsWith .leftBrace input = true)
    (h : fieldBlock input = .error refusal) :
    TokenReader.returns (tokens word ++ input) = .error refusal := by
  refine ((reads_take _ _).bind word (startsWithNone_nil _) _).trans ?_
  exact params_refused .results hstart h

theorem schema_refused (word : Terminal .schema) (name : Terminal .identifier)
    (h : fieldBlock input = .error refusal) :
    TokenReader.schema (tokens word ++ (tokens name ++ input)) = .error refusal := by
  refine ((reads_take _ _).bind word (startsWithNone_nil _) _).trans ?_
  refine ((reads_take _ _).bind name (startsWithNone_nil _) _).trans ?_
  dsimp only
  rw [h, error_bind]

theorem plugin_refused (p : PluginPhrase) (methods : List MethodPhrase)
    (hstart : startsWith .method input = true) (h : method input = .error refusal) :
    TokenReader.plugin (tokens p.word ++ (tokens p.first ++ (tokens p.more ++ (tokens p.asName ++
      (tokens p.opening ++ (tokens methods ++ input)))))) = .error refusal := by
  have hopening {kinds : List TokenKind} (hkinds : TokenKind.leftBrace ∉ kinds) :
      StartsWithNone kinds (tokens p.opening ++ (tokens methods ++ input)) :=
    startsWithNone_of_notMem ((headed_terminal .leftBrace).startsWith p.opening _) hkinds
  have hasName : StartsWithNone [.dot]
      (tokens p.asName ++ (tokens p.opening ++ (tokens methods ++ input))) :=
    headed_asName.startsWithNone_option (by decide) p.asName (hopening (by decide))
  have hmethods :=
    many_refused reads_method headed_method List.not_mem_nil methods hstart h
  refine ((reads_take _ _).bind p.word (startsWithNone_nil _) _).trans ?_
  refine ((reads_take _ _).bind p.first (startsWithNone_nil _) _).trans ?_
  refine (reads_furtherSegments.bind p.more hasName _).trans ?_
  refine ((reads_asName.optional headed_asName).bind p.asName (hopening (by decide)) _).trans ?_
  refine ((reads_take _ _).bind p.opening (startsWithNone_nil _) _).trans ?_
  dsimp only
  rw [hmethods, error_bind]

theorem item_refused_schema (hstart : startsWith .schema input = true)
    (h : TokenReader.schema input = .error refusal) : item input = .error refusal := by
  rw [item, if_pos hstart, h, map_error]

theorem item_refused_plugin (hstart : startsWith .plugin input = true)
    (h : TokenReader.plugin input = .error refusal) : item input = .error refusal := by
  have hschema : StartsWithNone [.schema] input := startsWithNone_of_notMem hstart (by decide)
  rw [item, if_neg (Bool.eq_false_iff.1 hschema.head), if_pos hstart, h, map_error]

theorem items_refused (unit : UnitPhrase) (hne : input ≠ []) (h : item input = .error refusal) :
    items (tokens unit ++ input) = .error refusal := by
  induction unit with
  | nil => rw [tokens_nil, List.nil_append, items, if_neg hne, h]
  | cons p unit ih => rw [tokens_cons, List.append_assoc, items_item_append, ih, map_error]

end Refused

end SchemaLang.TokenReader
