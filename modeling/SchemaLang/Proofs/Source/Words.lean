import SchemaLang.Proofs.Source.Accepted
import SchemaLang.Proofs.Text.Words

/-!
# Names are words

Every name of a source, whether it is a name for good or a reserved word among fields, is cut from
the source as a word (`exists_word_of_relabel`). So the names of an accepted source, those of its
schemas and those its plugins go by, are made of ASCII letters, digits and underscores.
-/

namespace SchemaLang

open Phrase

/-- A kind that is that of a name in some scope is the kind of a word. -/
theorem kind_of_advance {scope : Scope} {kind : TokenKind}
    (h : (scope.advance kind).2 = .identifier) :
    kind = .identifier ∨ kind.isReserved = true := by
  by_cases hsame : (scope.advance kind).2 = kind
  · exact .inl (hsame.symm.trans h)
  · exact .inr (Scope.advance_kind_ne_iff.1 hsame).1

theorem form_of_tokenKind? {form : LexemeForm} {text : List Char} {kind : TokenKind}
    (h : form.tokenKind? text = some kind) (hkind : kind = .identifier ∨ kind.isReserved = true) :
    form = .word := by
  unfold LexemeForm.tokenKind? at h
  split at h
  case h_4 => rfl
  case h_5 c text =>
    unfold TokenKind.ofMark? at h
    split at h
    all_goals first
      | cases h
        simp [TokenKind.isReserved] at hkind
      | cases h
  case h_7 c text =>
    split_ifs at h
    cases h
    simp [TokenKind.isReserved] at hkind
  all_goals first
    | cases h
      simp [TokenKind.isReserved] at hkind
    | cases h

/-- Only numbers give the tokens of numbers. -/
theorem form_of_numberLiteral {form : LexemeForm} {text : List Char}
    (h : form.tokenKind? text = some .numberLiteral) : form = .number := by
  unfold LexemeForm.tokenKind? at h
  split at h
  case h_4 =>
    unfold TokenKind.ofWord? at h
    split_ifs at h
    all_goals cases h
  case h_5 c text =>
    unfold TokenKind.ofMark? at h
    split at h
    all_goals cases h
  case h_7 c text => rfl
  all_goals cases h

/-- A token is a lexeme of the source, with the other tokens before and behind it. -/
theorem exists_lexeme_of_relabel {segments : List Segment} (hcut : Segment.Cut segments)
    {before behind : List Token} {token : Token}
    (h : relabel (Segment.tokens .start segments) = before ++ token :: behind) :
    ∃ (head : List Segment) (form : LexemeForm) (text : List Char) (tail : List Segment)
      (kind : TokenKind), segments = head ++ .lexeme form text :: tail ∧
      LexemeForm.lexeme? text = some (form, text.length) ∧ form.tokenKind? text = some kind ∧
      relabelFrom .outside (Segment.tokens .start head) = before ∧
      ⟨((Scope.outside.after before).advance kind).2, String.ofList text,
        Text.Position.start.after (Segment.concat head)⟩ = token ∧
      relabelFrom ((Scope.outside.after before).advance kind).1
        (Segment.tokens ((Text.Position.start.after (Segment.concat head)).after text) tail) =
          behind := by
  obtain ⟨first, raw, last, hraw, hfirst, rfl, hlast⟩ := exists_of_relabelFrom_eq h
  obtain ⟨head, segment, tail, rfl, rfl, hsegment, rfl⟩ := Segment.exists_of_tokens_eq hraw
  cases segment with
  | stray text => cases hsegment
  | lexeme form text =>
    obtain ⟨kind, hform, rfl⟩ := Option.map_eq_some_iff.1 hsegment
    have hlexeme := hcut.lexeme_of_mem (List.mem_append_right head List.mem_cons_self)
    exact ⟨head, form, text, tail, kind, rfl, hlexeme, hform, hfirst, rfl, hlast⟩

/-- A token that is a name is a word of the source, with the other tokens before and behind it. -/
theorem exists_word_of_relabel {segments : List Segment} (hcut : Segment.Cut segments)
    {before behind : List Token} {token : Token}
    (h : relabel (Segment.tokens .start segments) = before ++ token :: behind)
    (hkind : token.kind = .identifier) :
    ∃ (head : List Segment) (text : List Char) (tail : List Segment) (kind : TokenKind),
      segments = head ++ .lexeme .word text :: tail ∧
      LexemeForm.lexeme? text = some (.word, text.length) ∧
      relabelFrom .outside (Segment.tokens .start head) = before ∧
      ⟨((Scope.outside.after before).advance kind).2, String.ofList text,
        Text.Position.start.after (Segment.concat head)⟩ = token ∧
      relabelFrom ((Scope.outside.after before).advance kind).1
        (Segment.tokens ((Text.Position.start.after (Segment.concat head)).after text) tail) =
          behind := by
  obtain ⟨head, form, text, tail, kind, hsegments, hlexeme, hform, hbefore, rfl, hbehind⟩ :=
    exists_lexeme_of_relabel hcut h
  obtain rfl := form_of_tokenKind? hform (kind_of_advance hkind)
  exact ⟨head, text, tail, kind, hsegments, hlexeme, hbefore, rfl, hbehind⟩

theorem isWordText_of_lexeme? {text : List Char}
    (h : LexemeForm.lexeme? text = some (.word, text.length)) : Text.IsWordText text := by
  obtain ⟨c, rest, rfl, hc, hrest⟩ := LexemeForm.lexeme?_word_iff.1 h
  rw [Text.IsWordText, List.all_cons, hrest, Bool.and_true]
  exact LexemeForm.continuesWord_of_startsWord hc

/-- Every token of a source is a lexeme by itself, and keeps its kind unless that is reserved. -/
theorem exists_lexeme_of_tokensOf {source : String} {body : List Token} {p : Text.Position}
    (h : tokensOf source = .ok (body ++ [Segment.endToken p])) {token : Token}
    (htoken : token ∈ body) : ∃ (form : LexemeForm) (kind : TokenKind) (scope : Scope),
      LexemeForm.lexeme? token.text.toList = some (form, token.text.toList.length) ∧
      form.tokenKind? token.text.toList = some kind ∧ (scope.advance kind).2 = token.kind := by
  obtain ⟨segments, hcut, -, htokens⟩ := tokensOf_eq_ok_iff.1 h
  obtain ⟨rfl, -⟩ := List.append_inj' htokens rfl
  obtain ⟨before, behind, hsplit⟩ := List.append_of_mem htoken
  obtain ⟨_, form, text, _, kind, -, hlexeme, hform, -, rfl, -⟩ :=
    exists_lexeme_of_relabel hcut hsplit
  rw [String.toList_ofList]
  exact ⟨form, kind, _, hlexeme, hform, rfl⟩

/-- The names of a source are words. -/
theorem isWordText_of_tokensOf {source : String} {body : List Token} {p : Text.Position}
    (h : tokensOf source = .ok (body ++ [Segment.endToken p])) {token : Token}
    (htoken : token ∈ body) (hkind : token.kind = .identifier) :
    Text.IsWordText token.text.toList := by
  obtain ⟨form, kind, scope, hlexeme, hform, hadvance⟩ := exists_lexeme_of_tokensOf h htoken
  obtain rfl := form_of_tokenKind? hform (kind_of_advance (hadvance.trans hkind))
  exact isWordText_of_lexeme? hlexeme

/-- The numbers of a source are lexemes of numbers. -/
theorem lexeme?_of_number {source : String} {body : List Token} {p : Text.Position}
    (h : tokensOf source = .ok (body ++ [Segment.endToken p])) {token : Token}
    (htoken : token ∈ body) (hkind : token.kind = .numberLiteral) :
    LexemeForm.lexeme? token.text.toList = some (.number, token.text.toList.length) := by
  obtain ⟨form, kind, scope, hlexeme, hform, hadvance⟩ := exists_lexeme_of_tokensOf h htoken
  obtain rfl : kind = .numberLiteral := by
    rw [hkind] at hadvance
    cases scope <;> cases kind <;> first | rfl | cases hadvance
  obtain rfl := form_of_numberLiteral hform
  exact hlexeme

/-! ## Names of definitions -/

/-- The name that the type of a definition is generated from. -/
def Definition.codeName : Definition → String
  | schema s => s.name
  | plugin p => p.asName

theorem isWordText_codeName_ofNode {item : ItemPhrase}
    (h : ∀ token ∈ tokens item, token.kind = .identifier → Text.IsWordText token.text.toList) :
    Text.IsWordText (Definition.ofNode item.node).codeName.toList := by
  cases item with
  | schema phrase =>
    have hname : phrase.name.1 ∈ tokens (ItemPhrase.schema phrase) :=
      List.mem_append_left _ (List.mem_append_right _ List.mem_cons_self)
    exact h _ hname phrase.name.2
  | plugin phrase =>
    cases hasName : phrase.asName with
    | some asName =>
      have hmem : asName.2.1 ∈ tokens (ItemPhrase.plugin phrase) := by
        simp [tokens, hasName]
      have hname : (Definition.ofNode (ItemPhrase.plugin phrase).node).codeName =
          asName.2.1.text := by
        simp [ItemPhrase.node, PluginPhrase.node, Definition.ofNode_plugin, Definition.codeName,
          hasName]
      rw [hname]
      exact h _ hmem asName.2.2
    | none =>
      have hmem : phrase.first.1 ∈ tokens (ItemPhrase.plugin phrase) := by
        simp [tokens]
      have hname : (Definition.ofNode (ItemPhrase.plugin phrase).node).codeName =
          Text.upperCamel phrase.first.1.text := by
        simp [ItemPhrase.node, PluginPhrase.node, Definition.ofNode_plugin, Definition.codeName,
          hasName]
      rw [hname]
      exact Text.isWordText_upperCamel (h _ hmem phrase.first.2)

/-- The types of an accepted source are generated from words. -/
theorem isWordText_codeName {source : String} {definitions : List Definition}
    (h : compile source = .ok definitions) {definition : Definition}
    (hmem : definition ∈ definitions) : Text.IsWordText definition.codeName.toList := by
  obtain ⟨unit, p, htokens, -, rfl⟩ := compile_eq_ok_iff.1 h
  obtain ⟨node, hnode, rfl⟩ := List.mem_map.1 hmem
  obtain ⟨item, hitem, rfl⟩ := List.mem_map.1 hnode
  apply isWordText_codeName_ofNode
  intro token htoken hkind
  exact isWordText_of_tokensOf htokens (List.mem_flatMap.2 ⟨item, hitem, htoken⟩) hkind

end SchemaLang
