import SchemaLang.Proofs.Token.Segments
import SchemaLang.Proofs.Tree.Rules

/-!
# Scopes along a unit

The scope behind some tokens is the same whether they carry the kinds of their words or the kinds
that they have in their scopes. Along the tokens of a unit the scope is that of field definitions at
every field, with one exception: behind results in braces the braces of the parameters are not
announced, and the fields between them stand outside.
-/

namespace SchemaLang

open Phrase

namespace Scope

/-- The scope behind tokens of which the first one stands in a scope. -/
def after (scope : Scope) (tokens : List Token) : Scope :=
  tokens.foldl (fun scope token ↦ (scope.advance token.kind).1) scope

@[simp] theorem after_nil (scope : Scope) : scope.after [] = scope := rfl

@[simp] theorem after_cons (scope : Scope) (token : Token) (tokens : List Token) :
    scope.after (token :: tokens) = (scope.advance token.kind).1.after tokens := rfl

@[simp] theorem after_append (scope : Scope) (front back : List Token) :
    scope.after (front ++ back) = (scope.after front).after back := List.foldl_append

/-- A token is treated alike with the kind of its word and with the kind that it has. -/
theorem advance_advance (scope : Scope) (kind : TokenKind) :
    scope.advance (scope.advance kind).2 = scope.advance kind := by
  cases scope <;> cases kind <;> rfl

theorem advance_outside_kind (kind : TokenKind) : (Scope.outside.advance kind).2 = kind := by
  cases kind <;> rfl

theorem advance_eq_fields_iff {scope : Scope} {kind : TokenKind} :
    (scope.advance kind).1 = .fields ↔
      scope = .announced ∧ kind = .leftBrace ∨ scope = .fields ∧ kind ≠ .rightBrace := by
  cases scope <;> cases kind <;> decide

theorem advance_eq_announced_iff {scope : Scope} {kind : TokenKind} :
    (scope.advance kind).1 = .announced ↔ scope ≠ .fields ∧
      (kind ∈ [TokenKind.schema, .method, .returns] ∨
        scope = .announced ∧ kind ∉ [TokenKind.plugin, .leftBrace, .rightBrace]) := by
  cases scope <;> cases kind <;> decide

/-- Only reserved words among field definitions change their kind. -/
theorem advance_kind_ne_iff {scope : Scope} {kind : TokenKind} :
    (scope.advance kind).2 ≠ kind ↔ kind.isReserved = true ∧ scope = .fields := by
  cases scope <;> cases kind <;> decide

theorem advance_kind_eq_or (scope : Scope) (kind : TokenKind) :
    (scope.advance kind).2 = kind ∨ (scope.advance kind).2 = .identifier := by
  cases scope <;> cases kind <;> decide

end Scope

theorem relabelFrom_append (scope : Scope) (front back : List Token) :
    relabelFrom scope (front ++ back) =
      relabelFrom scope front ++ relabelFrom (scope.after front) back := by
  induction front generalizing scope with
  | nil => rfl
  | cons token front ih => exact congrArg (_ :: ·) (ih _)

theorem after_relabelFrom (scope : Scope) (tokens : List Token) :
    scope.after (relabelFrom scope tokens) = scope.after tokens := by
  induction tokens generalizing scope with
  | nil => rfl
  | cons token tokens ih =>
    rw [relabelFrom, Scope.after_cons, Scope.after_cons, Scope.advance_advance, ih]

theorem relabelFrom_moved (scope : Scope) (move : Text.Position → Text.Position)
    (tokens : List Token) : relabelFrom scope (tokens.map (·.moved move)) =
      (relabelFrom scope tokens).map (·.moved move) := by
  induction tokens generalizing scope with
  | nil => rfl
  | cons token tokens ih => exact congrArg (_ :: ·) (ih _)

theorem relabelFrom_append_endToken (scope : Scope) (tokens : List Token) (p : Text.Position) :
    relabelFrom scope (tokens ++ [Segment.endToken p]) =
      relabelFrom scope tokens ++ [Segment.endToken p] := by
  have hend (scope : Scope) : relabelFrom scope [Segment.endToken p] = [Segment.endToken p] := by
    cases scope <;> rfl
  rw [relabelFrom_append, hend]

/-- What does not depend on the kinds of tokens stays. -/
theorem map_relabelFrom {α : Type} {f : Token → α}
    (h : ∀ token kind, f { token with kind := kind } = f token) (scope : Scope)
    (tokens : List Token) : (relabelFrom scope tokens).map f = tokens.map f := by
  induction tokens generalizing scope with
  | nil => rfl
  | cons token tokens ih => rw [relabelFrom, List.map_cons, List.map_cons, ih, h]

/-- A kind in a scope is the end of the input only if it is so by itself. -/
theorem advance_ne_endOfInput {kind : TokenKind} (h : kind ≠ .endOfInput) (scope : Scope) :
    (scope.advance kind).2 ≠ .endOfInput := by
  rcases scope.advance_kind_eq_or kind with hsame | hname
  · rwa [hsame]
  · rw [hname]
    decide

theorem kind_of_mem_relabelFrom {scope : Scope} {tokens : List Token}
    (h : ∀ token ∈ tokens, token.kind ≠ .endOfInput) :
    ∀ token ∈ relabelFrom scope tokens, token.kind ≠ .endOfInput := by
  induction tokens generalizing scope with
  | nil => exact fun _ hmem ↦ absurd hmem List.not_mem_nil
  | cons first tokens ih =>
    intro token hmem
    rcases List.mem_cons.1 hmem with rfl | hmem
    · exact advance_ne_endOfInput (h first List.mem_cons_self) scope
    · exact ih (fun other hother ↦ h other (List.mem_cons_of_mem _ hother)) token hmem

/-- What is relabeled to some tokens splits where they split. -/
theorem exists_of_relabelFrom_eq {scope : Scope} {raw before behind : List Token} {token : Token}
    (h : relabelFrom scope raw = before ++ token :: behind) :
    ∃ front word back, raw = front ++ word :: back ∧ relabelFrom scope front = before ∧
      { word with kind := ((scope.after before).advance word.kind).2 } = token ∧
      relabelFrom ((scope.after before).advance word.kind).1 back = behind := by
  induction raw generalizing scope before with
  | nil => cases before <;> cases h
  | cons first raw ih =>
    cases before with
    | nil =>
      obtain ⟨htoken, hbehind⟩ := List.cons.inj h
      exact ⟨[], first, raw, rfl, rfl, htoken, hbehind⟩
    | cons other before =>
      obtain ⟨rfl, hrest⟩ := List.cons.inj h
      obtain ⟨front, word, back, rfl, rfl, hword, hback⟩ := ih hrest
      rw [Scope.after_cons, Scope.advance_advance]
      exact ⟨first :: front, word, back, rfl, rfl, hword, hback⟩

/-! ## The scope behind a phrase -/

/-- The phrases of a rule do not change the scope, whichever it is. -/
def KeepsScope (δ : Type) [Phrase δ] : Prop :=
  ∀ (phrase : δ) (scope : Scope), scope.after (tokens phrase) = scope

section KeepsScope

variable {δ ε : Type} [Phrase δ] [Phrase ε]

theorem keepsScope_terminal {kind : TokenKind}
    (h : ∀ scope : Scope, (scope.advance kind).1 = scope) : KeepsScope (Terminal kind) := by
  intro terminal scope
  rw [tokens_terminal, Scope.after_cons, terminal.2, Scope.after_nil, h]

theorem KeepsScope.pair (hleft : KeepsScope δ) (hright : KeepsScope ε) : KeepsScope (δ × ε) := by
  intro phrase scope
  rw [show phrase = (phrase.1, phrase.2) from rfl, tokens_pair, Scope.after_append, hleft, hright]

theorem KeepsScope.option (h : KeepsScope δ) : KeepsScope (Option δ) := by
  intro phrase scope
  cases phrase with
  | none => rfl
  | some phrase => exact h phrase scope

theorem KeepsScope.list (h : KeepsScope δ) : KeepsScope (List δ) := by
  intro phrases
  induction phrases with
  | nil => exact fun _ ↦ rfl
  | cons phrase phrases ih =>
    intro scope
    rw [tokens_cons, Scope.after_append, h, ih]

end KeepsScope

theorem keepsScope_identifier : KeepsScope (Terminal .identifier) :=
  keepsScope_terminal fun scope ↦ by cases scope <;> rfl

theorem keepsScope_literal : KeepsScope LiteralTerminal := by
  intro terminal scope
  obtain ⟨token, hkind⟩ := terminal
  rcases hkind with hkind | hkind | hkind <;> cases scope <;>
    simp [hkind, Scope.advance, TokenKind.isReserved]

theorem keepsScope_size : KeepsScope SizeTerminal := by
  intro terminal scope
  obtain ⟨token, hkind, -⟩ := terminal
  cases scope <;> simp [hkind, Scope.advance, TokenKind.isReserved]

theorem keepsScope_option : KeepsScope OptionPhrase := by
  intro p scope
  have hequals : KeepsScope (Terminal .equals) :=
    keepsScope_terminal fun scope ↦ by cases scope <;> rfl
  have htokens : tokens p = tokens p.key ++ tokens p.equals ++ tokens p.value := rfl
  rw [htokens, Scope.after_append, Scope.after_append, keepsScope_identifier, hequals,
    keepsScope_literal]

theorem keepsScope_options : KeepsScope OptionsPhrase := by
  intro p scope
  have hopening : KeepsScope (Terminal .leftParen) :=
    keepsScope_terminal fun scope ↦ by cases scope <;> rfl
  have hcomma : KeepsScope (Terminal .comma) :=
    keepsScope_terminal fun scope ↦ by cases scope <;> rfl
  have hclosing : KeepsScope (Terminal .rightParen) :=
    keepsScope_terminal fun scope ↦ by cases scope <;> rfl
  have hentries := (keepsScope_option.pair (hcomma.pair keepsScope_option).list).option
  have htokens : tokens p = tokens p.opening ++ tokens p.entries ++ tokens p.closing := rfl
  rw [htokens, Scope.after_append, Scope.after_append, hopening, hentries, hclosing]

theorem keepsScope_array : KeepsScope ArrayPhrase := by
  intro p scope
  have hopening : KeepsScope (Terminal .leftBracket) :=
    keepsScope_terminal fun scope ↦ by cases scope <;> rfl
  have hclosing : KeepsScope (Terminal .rightBracket) :=
    keepsScope_terminal fun scope ↦ by cases scope <;> rfl
  have htokens : tokens p = tokens p.opening ++ tokens p.size ++ tokens p.closing := rfl
  rw [htokens, Scope.after_append, Scope.after_append, hopening, keepsScope_size.option, hclosing]

theorem keepsScope_default : KeepsScope DefaultPhrase := by
  intro p scope
  have hequals : KeepsScope (Terminal .equals) :=
    keepsScope_terminal fun scope ↦ by cases scope <;> rfl
  have htokens : tokens p = tokens p.equals ++ tokens p.value := rfl
  rw [htokens, Scope.after_append, hequals, keepsScope_literal]

theorem keepsScope_questionMark : KeepsScope (Terminal .questionMark) :=
  keepsScope_terminal fun scope ↦ by cases scope <;> rfl

theorem keepsScope_field : KeepsScope FieldPhrase := by
  intro p scope
  have htokens : tokens p = tokens p.name ++ tokens p.optional ++ tokens p.type ++
      tokens p.options ++ tokens p.array ++ tokens p.default := rfl
  rw [htokens, Scope.after_append, Scope.after_append, Scope.after_append, Scope.after_append,
    Scope.after_append, keepsScope_identifier, keepsScope_questionMark.option,
    keepsScope_identifier, keepsScope_options.option, keepsScope_array.option,
    keepsScope_default.option]

/-- A closing brace leaves every scope. -/
theorem after_closing (scope : Scope) (closing : Terminal .rightBrace) :
    scope.after (tokens closing) = .outside := by
  rw [tokens_terminal, Scope.after_cons, closing.2, Scope.after_nil]
  cases scope <;> rfl

theorem after_block (scope : Scope) (p : BlockPhrase) : scope.after (tokens p) = .outside := by
  have htokens : tokens p = tokens p.opening ++ tokens p.fields ++ tokens p.closing := rfl
  rw [htokens, Scope.after_append, after_closing]

theorem after_params {scope : Scope} (h : scope ≠ .fields) (p : ParamsPhrase) :
    scope.after (tokens p) ≠ .fields := by
  cases p with
  | block p =>
    have hblock := after_block scope p
    exact fun hfields ↦ absurd (hblock.symm.trans hfields) (by decide)
  | named type =>
    have htype := keepsScope_identifier type scope
    exact fun hfields ↦ h (htype.symm.trans hfields)

/-- A word that announces fields does so wherever it is not a name. -/
theorem after_announcing {scope : Scope} (h : scope ≠ .fields) {kind : TokenKind}
    (hkind : kind ∈ [TokenKind.schema, .method, .returns]) (word : Terminal kind) :
    scope.after (tokens word) = .announced := by
  rw [tokens_terminal, Scope.after_cons, word.2, Scope.after_nil]
  exact Scope.advance_eq_announced_iff.2 ⟨h, .inl hkind⟩

theorem after_returns {scope : Scope} (h : scope ≠ .fields) (p : ReturnsPhrase) :
    scope.after (tokens p) ≠ .fields := by
  have htokens : tokens p = tokens p.word ++ tokens p.results := rfl
  rw [htokens, Scope.after_append, after_announcing h (by decide)]
  exact after_params (by decide) p.results

/-- What stands before the signature of a method. -/
theorem after_methodHead {scope : Scope} (h : scope ≠ .fields) (p : MethodPhrase) :
    scope.after (tokens p.word ++ tokens p.name ++ tokens p.options) = .announced := by
  rw [Scope.after_append, Scope.after_append, after_announcing h (by decide),
    keepsScope_identifier, keepsScope_options.option]

/-- A method that starts outside of field definitions ends outside of them. -/
theorem after_method {scope : Scope} (h : scope ≠ .fields) (p : MethodPhrase) :
    scope.after (tokens p) ≠ .fields := by
  have htokens : tokens p =
      tokens p.word ++ tokens p.name ++ tokens p.options ++ tokens p.signature := rfl
  rw [htokens, Scope.after_append, after_methodHead h]
  cases p.signature with
  | paramsFirst parameters returns =>
    have hsignature : tokens (SignaturePhrase.paramsFirst parameters returns) =
        tokens parameters ++ tokens returns := rfl
    rw [hsignature, Scope.after_append]
    exact after_returns (after_params (by decide) parameters) returns
  | returnsFirst returns parameters =>
    have hsignature : tokens (SignaturePhrase.returnsFirst returns parameters) =
        tokens returns ++ tokens parameters := rfl
    rw [hsignature, Scope.after_append]
    exact after_params (after_returns (by decide) returns) parameters

theorem after_methods {scope : Scope} (h : scope ≠ .fields) (methods : List MethodPhrase) :
    scope.after (tokens methods) ≠ .fields := by
  induction methods generalizing scope with
  | nil => exact h
  | cons method methods ih =>
    rw [tokens_cons, Scope.after_append]
    exact ih (after_method h method)

/-- Behind every item the scope is outside. -/
theorem after_item (scope : Scope) (p : ItemPhrase) : scope.after (tokens p) = .outside := by
  cases p with
  | schema p =>
    have htokens : tokens (ItemPhrase.schema p) =
        tokens p.word ++ tokens p.name ++ tokens p.block := rfl
    rw [htokens, Scope.after_append, after_block]
  | plugin p =>
    have htokens : tokens (ItemPhrase.plugin p) = tokens p.word ++ tokens p.first ++
        tokens p.more ++ tokens p.asName ++ tokens p.opening ++ tokens p.methods ++
        tokens p.closing := rfl
    rw [htokens, Scope.after_append, after_closing]

theorem after_unit (p : UnitPhrase) : Scope.outside.after (tokens p) = .outside := by
  induction p with
  | nil => rfl
  | cons item p ih => rw [tokens_cons, Scope.after_append, after_item, ih]

end SchemaLang
