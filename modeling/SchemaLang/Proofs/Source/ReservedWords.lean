import SchemaLang.Proofs.Source.FieldPlace
import SchemaLang.Proofs.Source.Placement
import SchemaLang.Proofs.Source.Words

/-!
# Reserved words as names

A reserved word is a name among field definitions: in an accepted source it may replace the name or
the type of a field, and nothing else of the definitions changes. The parameters of a method that
stand behind results in braces are the one place where this is not so. Their braces are not
announced, so that a reserved word stays reserved between them and is refused where it stands
(`compile_replace_word`).
-/

namespace SchemaLang

open Phrase

/-! ## Replacing a word of a source -/

/-- The kind of token that a word gives. -/
def TokenKind.ofWord (word : String) : TokenKind := (ofWord? word).getD .identifier

/-- Among fields a word is a name, whichever word it is. -/
theorem advance_fields_ofWord (word : String) :
    Scope.fields.advance (TokenKind.ofWord word) = (.fields, .identifier) := by
  unfold TokenKind.ofWord TokenKind.ofWord?
  split_ifs <;> rfl

theorem newline_notMem_word {text : List Char}
    (h : LexemeForm.lexeme? text = some (.word, text.length)) : '\n' ∉ text := by
  obtain ⟨c, rest, rfl, hc, hrest⟩ := LexemeForm.lexeme?_word_iff.1 h
  intro hmem
  rcases List.mem_cons.1 hmem with rfl | hmem
  · exact absurd hc (by decide)
  · exact absurd (List.all_eq_true.1 hrest _ hmem) (by decide)

/--
The tokens of segments in which one word replaces another. Those before the word stay where they
are, and those behind it are moved.
-/
theorem Segment.exists_move (head tail : List Segment) {old new : List Char}
    (hold : LexemeForm.lexeme? old = some (.word, old.length))
    (hnew : LexemeForm.lexeme? new = some (.word, new.length)) :
    ∃ move : Text.Position → Text.Position,
      tokens .start (head ++ lexeme .word new :: tail) =
        tokens .start head ++
          ⟨.ofWord (String.ofList new), String.ofList new,
            Text.Position.start.after (concat head)⟩ ::
            (tokens ((Text.Position.start.after (concat head)).after old) tail).map
              (·.moved move) ∧
      (tokens .start head).map (·.moved move) = tokens .start head ∧
      move (Text.Position.start.after (concat head)) = Text.Position.start.after (concat head) := by
  obtain ⟨p, hp⟩ : ∃ p, Text.Position.start.after (concat head) = p := ⟨_, rfl⟩
  have hlineOld := Text.Position.after_of_notMem (newline_notMem_word hold) p
  have hlineNew := Text.Position.after_of_notMem (newline_notMem_word hnew) p
  have hpos : 0 < old.length := LexemeForm.lexeme?_pos hold
  have hbehind (text : List Char) : Text.Position.shifted (p.after old) (p.after new)
      ((p.after old).after text) = (p.after new).after text := by
    apply Text.Position.shifted_after
    rw [hlineOld, hlineNew]
  have hbefore {q : Text.Position} {text : List Char} (hq : q.after text = p) :
      Text.Position.shifted (p.after old) (p.after new) q = q := by
    apply Text.Position.shifted_of_lt text
    · rw [hq, hlineOld]
    · rw [hq, hlineOld]
      exact Nat.lt_add_of_pos_right hpos
  refine ⟨Text.Position.shifted (p.after old) (p.after new), ?_, ?_, ?_⟩
  · rw [tokens_append, hp, ← tokens_moved hbehind tail]
    rfl
  · refine (List.map_congr_left fun token htoken ↦ ?_).trans (List.map_id' _)
    obtain ⟨front, back, hsplit, hplace⟩ := tokens_position htoken
    have hq : token.position.after back = p := by
      rw [hplace, ← Text.Position.after_append, ← hsplit, hp]
    exact congrArg (fun position ↦ { token with position := position }) (hbefore hq)
  · rw [hp]
    exact hbefore (Text.Position.after_nil p)

/--
A word of a source replaced by another one. The tokens before it stay, and so do those behind it,
but for their places, if both words stand among fields.
-/
theorem tokensOf_replace_word {source : String} {before behind : List Token} {token : Token}
    {stop : Text.Position}
    (h : tokensOf source = .ok (before ++ token :: behind ++ [Segment.endToken stop]))
    (hkind : token.kind = .identifier) :
    ∃ front back : List Char, source.toList = front ++ (token.text.toList ++ back) ∧
      token.position = Text.Position.start.after front ∧
      ∀ word : String, LexemeForm.lexeme? word.toList = some (.word, word.toList.length) →
        ∃ (move : Text.Position → Text.Position) (rest : List Token) (stop : Text.Position),
          tokensOf (String.ofList (front ++ (word.toList ++ back))) = .ok (before ++
            ⟨((Scope.outside.after before).advance (.ofWord word)).2, word, token.position⟩ ::
              rest ++ [Segment.endToken stop]) ∧
          (Scope.outside.after before = .fields → rest = behind.map (·.moved move)) ∧
          before.map (·.moved move) = before ∧ move token.position = token.position := by
  obtain ⟨segments, hcut, hconcat, htokens⟩ := tokensOf_eq_ok_iff.1 h
  obtain ⟨hrelabel, -⟩ := List.append_inj' htokens rfl
  obtain ⟨head, text, tail, kind, rfl, hold, hfirst, rfl, hlast⟩ :=
    exists_word_of_relabel hcut hrelabel.symm hkind
  refine ⟨Segment.concat head, Segment.concat tail, ?_, rfl, ?_⟩
  · rw [← hconcat, String.toList_ofList, Segment.concat_append, Segment.concat_cons, Segment.text]
  intro word hword
  obtain ⟨move, hmoved, hhead, hplace⟩ := Segment.exists_move head tail hold hword
  rw [String.ofList_toList] at hmoved
  have hscope : Scope.outside.after (Segment.tokens .start head) = Scope.outside.after before := by
    rw [← hfirst, after_relabelFrom]
  have hconcatWord : Segment.concat (head ++ Segment.lexeme .word word.toList :: tail) =
      (String.ofList (Segment.concat head ++ (word.toList ++ Segment.concat tail))).toList := by
    rw [String.toList_ofList, Segment.concat_append, Segment.concat_cons, Segment.text]
  have htokensWord := tokensOf_eq_ok_iff.2 ⟨_, hcut.replace_word hword, hconcatWord, rfl⟩
  rw [relabel, hmoved, relabelFrom_append, hscope, hfirst] at htokensWord
  refine ⟨move, _, _, htokensWord, ?_, ?_, hplace⟩
  · intro hfields
    have hkeeps : (Scope.fields.advance kind).1 = .fields := by
      rw [hfields] at hkind
      cases kind <;> first | rfl | cases hkind
    rw [hfields] at hlast ⊢
    rw [advance_fields_ofWord, relabelFrom_moved, ← hlast]
    exact congrArg (fun scope ↦ (relabelFrom scope _).map _) hkeeps.symm
  · rw [← hfirst, ← relabelFrom_moved, hhead]

/-! ## The words of a field -/

/-- The words of a field that are names. -/
inductive FieldWord where
  | name
  | type
  deriving DecidableEq, Repr

/-- What is expected where a word of a field stands. -/
def FieldWord.expected : FieldWord → Expectation
  | name => .fieldOrClosingBrace
  | type => .fieldType

/-- A field with another text for one of its words. -/
def Field.setWord (text : String) (field : Field) : FieldWord → Field
  | .name => { field with name := text }
  | .type => { field with type := text }

namespace FieldPhrase

/-- A word of a field. -/
def word (p : FieldPhrase) : FieldWord → Terminal .identifier
  | .name => p.name
  | .type => p.type

/-- A field with another token for one of its words. -/
def setWord (token : Terminal .identifier) (p : FieldPhrase) : FieldWord → FieldPhrase
  | .name => { p with name := token }
  | .type => { p with type := token }

/-- The tokens of a field in front of a word. -/
def front (p : FieldPhrase) : FieldWord → List Token
  | .name => []
  | .type => tokens p.name ++ tokens p.optional

/-- The tokens of a field behind a word. -/
def back (p : FieldPhrase) : FieldWord → List Token
  | .name => tokens p.optional ++ (tokens p.type ++ (tokens p.options ++ (tokens p.array ++
      tokens p.default)))
  | .type => tokens p.options ++ (tokens p.array ++ tokens p.default)

theorem tokens_setWord (token : Terminal .identifier) (p : FieldPhrase) (part : FieldWord) :
    tokens (p.setWord token part) = p.front part ++ token.1 :: p.back part := by
  have htokens (p : FieldPhrase) : tokens p = tokens p.name ++ (tokens p.optional ++
      (tokens p.type ++ (tokens p.options ++ (tokens p.array ++ tokens p.default)))) := by
    rw [← List.append_nil (tokens p), field_append, List.append_nil]
  rw [htokens]
  cases part <;>
    simp only [setWord, front, back, tokens_terminal, List.nil_append, List.cons_append]

theorem tokens_word (p : FieldPhrase) (part : FieldWord) :
    tokens p = p.front part ++ (p.word part).1 :: p.back part := by
  have hself : p.setWord (p.word part) part = p := by
    cases part <;> rfl
  calc
    tokens p = tokens (p.setWord (p.word part) part) := by rw [hself]
    _ = p.front part ++ (p.word part).1 :: p.back part := tokens_setWord _ p part

theorem after_front (p : FieldPhrase) (part : FieldWord) (scope : Scope) :
    scope.after (p.front part) = scope := by
  cases part with
  | name => rfl
  | type => rw [front, Scope.after_append, keepsScope_identifier, keepsScope_questionMark.option]

end FieldPhrase

/-! ## Attributes and words -/

theorem Field.withOption_setWord (text : String) (part : FieldWord) (field : Field)
    (entry : OptionNode) : (field.setWord text part).withOption entry =
      (field.withOption entry).setWord text part := by
  unfold Field.withOption Field.withOption?
  split
  case h_6 => cases part <;> cases entry.arraySize? <;> rfl
  all_goals cases part <;> rfl

theorem Field.foldl_withOption_setWord (text : String) (part : FieldWord)
    (options : List OptionNode) (field : Field) :
    options.foldl Field.withOption (field.setWord text part) =
      (options.foldl Field.withOption field).setWord text part := by
  induction options generalizing field with
  | nil => rfl
  | cons entry options ih =>
    rw [List.foldl_cons, List.foldl_cons, Field.withOption_setWord, ih]

theorem Field.withArray_setWord (text : String) (part : FieldWord) (field : Field)
    (array : Option ArrayNode) : (field.setWord text part).withArray array =
      (field.withArray array).setWord text part := by
  unfold Field.withArray
  cases part <;> split <;> rfl

/-- A field with the attributes of a node. -/
def Field.withAttributes (node : FieldNode) (plain : Field) : Field :=
  { ((node.options.getD []).foldl withOption plain).withArray node.array with
    default := node.default.map Literal.ofToken }

theorem Field.withAttributes_setWord (node : FieldNode) (text : String) (part : FieldWord)
    (plain : Field) : Field.withAttributes node (plain.setWord text part) =
      (Field.withAttributes node plain).setWord text part := by
  unfold Field.withAttributes
  rw [Field.foldl_withOption_setWord, Field.withArray_setWord]
  cases part <;> rfl

/-- The attributes of a field do not depend on its words. -/
theorem FieldPhrase.ofNode_setWord (token : Terminal .identifier) (part : FieldWord)
    (p : FieldPhrase) :
    Field.ofNode (p.setWord token part).node = (Field.ofNode p.node).setWord token.1.text part := by
  let plain : Field :=
    { name := p.name.1.text, type := p.type.1.text, optional := p.node.optional.isSome }
  calc
    Field.ofNode (p.setWord token part).node =
        Field.withAttributes p.node (plain.setWord token.1.text part) := by
      cases part <;> exact Field.ofNode_eq _
    _ = (Field.withAttributes p.node plain).setWord token.1.text part :=
      Field.withAttributes_setWord _ _ _ _
    _ = (Field.ofNode p.node).setWord token.1.text part := by
      rw [Field.ofNode_eq]
      rfl

/-! ## Reserved words in accepted sources -/

theorem reserved_word {word : String} (h : (TokenKind.ofWord? word).isSome) :
    LexemeForm.lexeme? word.toList = some (.word, word.toList.length) ∧
      (TokenKind.ofWord word).isReserved = true := by
  unfold TokenKind.ofWord
  unfold TokenKind.ofWord? at h ⊢
  split_ifs at h ⊢ with hschema hmethod hplugin has hreturns
  · subst hschema; decide
  · subst hmethod; decide
  · subst hplugin; decide
  · subst has; decide
  · subst hreturns; decide
  · cases h

/-- A unit with another token for a word of the field at a place. -/
def UnitPhrase.setWord (unit : UnitPhrase) (place : FieldPlace) (token : Terminal .identifier)
    (part : FieldWord) : UnitPhrase :=
  place.block.modifyPhrase (fun block ↦
    { block with fields := block.fields.modify place.field (·.setWord token part) }) unit

theorem UnitPhrase.ofNode_setWord (unit : UnitPhrase) (place : FieldPlace)
    (token : Terminal .identifier) (part : FieldWord) :
    (unit.setWord place token part).nodes.map Definition.ofNode =
      place.modify (·.setWord token.1.text part) (unit.nodes.map Definition.ofNode) := by
  refine BlockPlace.nodes_modifyPhrase (fun block ↦ ?_) unit place.block
  unfold BlockPhrase.nodes
  rw [List.map_map, List.map_map]
  exact map_modify (fun field ↦ field.ofNode_setWord token part) block.fields place.field

/--
The tokens of a unit split at a word of a field. Another word can stand there, the scope is known,
and a reserved word is refused there unless it counts as a name.
-/
structure WordSite (unit : UnitPhrase) (place : FieldPlace) (field : FieldPhrase) (part : FieldWord)
    (before behind : List Token) : Prop where
  tokens_unit : tokens unit = before ++ (field.word part).1 :: behind
  tokens_setWord : ∀ token, tokens (unit.setWord place token part) = before ++ token.1 :: behind
  scope : Scope.outside.after before = if unit.behindResults place.block then .outside else .fields
  refused : ∀ {token : Token} (rest : List Token), token.kind.isReserved = true →
    TokenReader.items (before ++ token :: rest) =
      .error (.unexpected part.expected (token :: rest))

theorem exists_wordSite {unit : UnitPhrase} {place : FieldPlace} {field : FieldPhrase}
    (h : unit.field? place = some field) (part : FieldWord) :
    ∃ before behind, WordSite unit place field part before behind := by
  obtain ⟨block, hblock, hfield⟩ := Option.bind_eq_some_iff.1 h
  obtain ⟨front, back, hsite⟩ := exists_site hblock
  have htokens (fields : List FieldPhrase) : tokens { block with fields := fields } =
      tokens block.opening ++ (tokens fields ++ tokens block.closing) := List.append_assoc ..
  refine ⟨front ++ (tokens block.opening ++ (tokens (block.fields.take place.field) ++
      field.front part)),
    field.back part ++ (tokens (block.fields.drop (place.field + 1)) ++
      (tokens block.closing ++ back)), ?_, ?_, ?_, ?_⟩
  · rw [hsite.tokens_unit, htokens block.fields, tokens_of_getElem? hfield, field.tokens_word part]
    simp only [List.append_assoc, List.cons_append]
  · intro token
    rw [UnitPhrase.setWord, hsite.tokens_modify, htokens, tokens_modify hfield,
      field.tokens_setWord]
    simp only [List.append_assoc, List.cons_append]
  · have hopening (scope : Scope) :
        scope.after (tokens block.opening) = (scope.advance .leftBrace).1 := by
      rw [tokens_terminal, Scope.after_cons, block.opening.2, Scope.after_nil]
    rw [Scope.after_append, hsite.scope, Scope.after_append, hopening, Scope.after_append,
      keepsScope_field.list, field.after_front]
    split <;> rfl
  · intro token rest hreserved
    have hstart (input : List Token) :
        TokenReader.startsWith .leftBrace (tokens block.opening ++ input) = true :=
      (TokenReader.headed_terminal .leftBrace).startsWith block.opening input
    simp only [List.append_assoc]
    apply hsite.refused (hstart _)
    cases part with
    | name =>
      have hkinds : ∀ kind ∈ TokenKind.rightBrace :: .identifier :: TokenReader.fieldStops,
          kind.isReserved = false := by decide
      apply TokenReader.fieldBlock_refused_name
      intro hmem
      rw [hkinds _ hmem] at hreserved
      cases hreserved
    | type =>
      have hkinds : ∀ kind ∈ [TokenKind.identifier, .questionMark], kind.isReserved = false := by
        decide
      rw [FieldPhrase.front, List.append_assoc]
      apply TokenReader.fieldBlock_refused_type
      intro hmem
      rw [hkinds _ hmem] at hreserved
      cases hreserved

/--
In an accepted source a reserved word can replace every word of every field: the definitions are the
same but for this word. Only between the braces of parameters that stand behind results in braces
a reserved word is refused, and the error is at this word.
-/
theorem compile_replace_word {source : String} {definitions : List Definition}
    (h : compile source = .ok definitions) :
    ∃ (unit : UnitPhrase) (stop : Text.Position),
      tokensOf source = .ok (tokens unit ++ [Segment.endToken stop]) ∧
      unit.nodes.map Definition.ofNode = definitions ∧
      ∀ (place : FieldPlace) (field : FieldPhrase) (part : FieldWord),
        unit.field? place = some field →
        ∃ front back : List Char,
          source.toList = front ++ ((field.word part).1.text.toList ++ back) ∧
          (field.word part).1.position = Text.Position.start.after front ∧
          ∀ word : String, (TokenKind.ofWord? word).isSome →
            compile (String.ofList (front ++ (word.toList ++ back))) =
              if unit.behindResults place.block then
                .error ⟨.unexpected part.expected (some word), (field.word part).1.position⟩
              else .ok (place.modify (·.setWord word part) definitions) := by
  obtain ⟨unit, stop, htokens, hnames, hdefinitions⟩ := compile_eq_ok_iff.1 h
  refine ⟨unit, stop, htokens, hdefinitions, fun place field part hfield ↦ ?_⟩
  obtain ⟨before, behind, hsite⟩ := exists_wordSite hfield part
  rw [hsite.tokens_unit] at htokens
  obtain ⟨front, back, hsource, hposition, hreplace⟩ :=
    tokensOf_replace_word htokens (field.word part).2
  refine ⟨front, back, hsource, hposition, fun word hreserved ↦ ?_⟩
  obtain ⟨hlexeme, hkind⟩ := reserved_word hreserved
  obtain ⟨move, rest, stop, htokensWord, hrest, hbefore, hplace⟩ := hreplace word hlexeme
  have hscope := hsite.scope
  split
  case isTrue hbehind =>
    rw [if_pos hbehind] at hscope
    rw [hscope, Scope.advance_outside_kind] at htokensWord
    exact compile_of_refused htokensWord (hsite.refused rest hkind)
  case isFalse hbehind =>
    rw [if_neg hbehind] at hscope
    rw [hrest hscope, hscope, advance_fields_ofWord] at htokensWord
    let token : Terminal .identifier := ⟨⟨.identifier, word, (field.word part).1.position⟩, rfl⟩
    have hmoved : tokens (Phrase.moved move (unit.setWord place token part)) =
        before ++ token.1 :: behind.map (·.moved move) := by
      have htoken : token.1.moved move = token.1 :=
        congrArg (fun position ↦ { token.1 with position := position }) hplace
      rw [tokens_moved, hsite.tokens_setWord, List.map_append, List.map_cons, hbefore, htoken]
    have hword : (UnitPhrase.nodes (Phrase.moved move (unit.setWord place token part))).map
        Definition.ofNode = place.modify (·.setWord word part) definitions := by
      rw [UnitPhrase.ofNode_moved, UnitPhrase.ofNode_setWord, hdefinitions]
    refine compile_eq_ok_iff.2
      ⟨Phrase.moved move (unit.setWord place token part), stop, ?_, ?_, hword⟩
    · rw [hmoved]
      exact htokensWord
    · rw [verifyNames_eq_ok_iff, hdefinitions] at hnames
      rw [verifyNames_eq_ok_iff, hword, FieldPlace.modify, BlockPlace.name_modify]
      exact hnames

/-- Behind results that are named, the braces of the parameters are announced. -/
theorem compile_replace_word_named_results :
    compile "plugin p \x7b method m returns A \x7b x B \x7d \x7d" =
      .ok [.plugin ⟨"p", "P", [⟨"m", .many [{ name := "x", type := "B" }],
        .single { name := "a", type := "A" }, none⟩]⟩] ∧
    ∃ front back : List Char,
      "plugin p \x7b method m returns A \x7b x B \x7d \x7d".toList =
        front ++ ("x".toList ++ back) ∧
      compile (String.ofList (front ++ ("method".toList ++ back))) =
        .ok [.plugin ⟨"p", "P", [⟨"m", .many [{ name := "method", type := "B" }],
          .single { name := "a", type := "A" }, none⟩]⟩] := by
  have hcompile : compile "plugin p \x7b method m returns A \x7b x B \x7d \x7d" =
      .ok [.plugin ⟨"p", "P", [⟨"m", .many [{ name := "x", type := "B" }],
        .single { name := "a", type := "A" }, none⟩]⟩] := by
    decide +kernel
  let field : FieldPhrase := ⟨⟨⟨.identifier, "x", ⟨1, 33⟩⟩, rfl⟩, none,
    ⟨⟨.identifier, "B", ⟨1, 35⟩⟩, rfl⟩, none, none, none⟩
  let written : UnitPhrase :=
    [.plugin ⟨⟨⟨.plugin, "plugin", ⟨1, 1⟩⟩, rfl⟩, ⟨⟨.identifier, "p", ⟨1, 8⟩⟩, rfl⟩, [], none,
      ⟨⟨.leftBrace, "\x7b", ⟨1, 10⟩⟩, rfl⟩,
      [⟨⟨⟨.method, "method", ⟨1, 12⟩⟩, rfl⟩, ⟨⟨.identifier, "m", ⟨1, 19⟩⟩, rfl⟩, none,
        .returnsFirst
          ⟨⟨⟨.returns, "returns", ⟨1, 21⟩⟩, rfl⟩, .named ⟨⟨.identifier, "A", ⟨1, 29⟩⟩, rfl⟩⟩
          (.block ⟨⟨⟨.leftBrace, "\x7b", ⟨1, 31⟩⟩, rfl⟩, [field],
            ⟨⟨.rightBrace, "\x7d", ⟨1, 37⟩⟩, rfl⟩⟩)⟩],
      ⟨⟨.rightBrace, "\x7d", ⟨1, 39⟩⟩, rfl⟩⟩]
  have hwritten : tokensOf "plugin p \x7b method m returns A \x7b x B \x7d \x7d" =
      .ok (tokens written ++ [Segment.endToken ⟨1, 40⟩]) := by
    decide +kernel
  obtain ⟨unit, stop, htokens, -, hreplace⟩ := compile_replace_word hcompile
  have hunit : unit = written := unit_eq_of_tokensOf htokens hwritten
  have hfield : unit.field? ⟨.method 0 0 .parameters, 0⟩ = some field := by
    rw [hunit]
    rfl
  obtain ⟨front, back, hsource, -, hword⟩ := hreplace _ field .name hfield
  refine ⟨hcompile, front, back, hsource, (hword "method" rfl).trans ?_⟩
  rw [hunit]
  rfl

/-- Behind results in braces the braces of the parameters are not announced. -/
theorem compile_replace_word_behind_results :
    compile "plugin p \x7b method m returns \x7b a int8 \x7d \x7b b int8 \x7d \x7d" =
      .ok [.plugin ⟨"p", "P", [⟨"m", .many [{ name := "b", type := "int8" }],
        .many [{ name := "a", type := "int8" }], none⟩]⟩] ∧
    compile "plugin p \x7b method m returns \x7b a int8 \x7d \x7b method int8 \x7d \x7d" =
      .error ⟨.unexpected .fieldOrClosingBrace (some "method"), ⟨1, 42⟩⟩ := by
  decide +kernel

end SchemaLang
