import SchemaLang.Proofs.Token.Scopes

/-!
# Relabeling token by token

A token loses the kind of a reserved word exactly if field definitions are open where it stands:
some word before it announces them, the next brace opens them, and no brace has closed them since.
So the scope of a place is a matter of the kinds before it alone, as they are before relabeling
(`scope_iff`). A second relabeling meets the same scopes and changes nothing.
-/

namespace SchemaLang

/-! ## What a place has seen -/

/-- Some place before this one has a property, and all places between the two have another one. -/
def Since (mark keep : Nat → Prop) (i : Nat) : Prop :=
  ∃ j < i, mark j ∧ ∀ m, j < m → m < i → keep m

theorem not_since_zero (mark keep : Nat → Prop) : ¬Since mark keep 0 :=
  fun ⟨_, hlt, _⟩ ↦ absurd hlt (Nat.not_lt_zero _)

/-- A further place is the mark itself, or keeps what has been since one before. -/
theorem since_succ_iff {mark keep : Nat → Prop} {i : Nat} :
    Since mark keep (i + 1) ↔ mark i ∨ Since mark keep i ∧ keep i := by
  constructor
  · rintro ⟨j, hj, hmark, hkeep⟩
    rcases Nat.lt_succ_iff_lt_or_eq.1 hj with hlt | rfl
    · refine .inr ⟨⟨j, hlt, hmark, fun m hjm hm ↦ hkeep m hjm (Nat.lt_succ_of_lt hm)⟩, ?_⟩
      exact hkeep i hlt (Nat.lt_succ_self i)
    · exact .inl hmark
  · rintro (hmark | ⟨⟨j, hj, hmark, hkeep⟩, hlast⟩)
    · refine ⟨i, Nat.lt_succ_self i, hmark, fun m him hm ↦ ?_⟩
      exact absurd him (Nat.not_lt.2 (Nat.le_of_lt_succ hm))
    · refine ⟨j, Nat.lt_succ_of_lt hj, hmark, fun m hjm hm ↦ ?_⟩
      rcases Nat.lt_succ_iff_lt_or_eq.1 hm with hlt | rfl
      · exact hkeep m hjm hlt
      · exact hlast

/-- A word that announces field definitions stands before a place, and since then neither a brace
nor a plugin. -/
def FieldsAnnounced (kinds : List TokenKind) : Nat → Prop :=
  Since (kinds[·]? ∈ [some .schema, some .method, some .returns])
    (kinds[·]? ∉ [some .plugin, some .leftBrace, some .rightBrace])

/-- A brace that opens announced field definitions stands before a place, and since then no closing
brace. -/
def FieldsOpened (kinds : List TokenKind) : Nat → Prop :=
  Since (fun j ↦ FieldsAnnounced kinds j ∧ kinds[j]? = some .leftBrace)
    (kinds[·]? ≠ some .rightBrace)

theorem fieldsAnnounced_succ_iff {kinds : List TokenKind} {i : Nat} {kind : TokenKind}
    (h : kinds[i]? = some kind) : FieldsAnnounced kinds (i + 1) ↔
      kind ∈ [TokenKind.schema, .method, .returns] ∨
        FieldsAnnounced kinds i ∧ kind ∉ [TokenKind.plugin, .leftBrace, .rightBrace] := by
  rw [FieldsAnnounced, since_succ_iff, h]
  simp only [List.mem_cons, Option.some.injEq, List.not_mem_nil]

theorem fieldsOpened_succ_iff {kinds : List TokenKind} {i : Nat} {kind : TokenKind}
    (h : kinds[i]? = some kind) : FieldsOpened kinds (i + 1) ↔
      FieldsAnnounced kinds i ∧ kind = .leftBrace ∨ FieldsOpened kinds i ∧ kind ≠ .rightBrace := by
  rw [FieldsOpened, since_succ_iff, h]
  simp only [Option.some.injEq, ne_eq]

/-- The word at one place announces field definitions, the brace at another one opens them, and they
are still open at a third place. -/
structure OpensFields (kinds : List TokenKind) (word brace i : Nat) : Prop where
  word_lt : word < brace
  brace_lt : brace < i
  announces : kinds[word]? ∈ [some .schema, some .method, some .returns]
  opens : kinds[brace]? = some .leftBrace
  announced : ∀ m, word < m → m < brace →
    kinds[m]? ∉ [some .plugin, some .leftBrace, some .rightBrace]
  lasts : ∀ m, brace < m → m < i → kinds[m]? ≠ some .rightBrace

theorem exists_opensFields_iff {kinds : List TokenKind} {i : Nat} :
    (∃ word brace, OpensFields kinds word brace i) ↔ FieldsOpened kinds i := by
  constructor
  · rintro ⟨word, brace, h⟩
    exact ⟨brace, h.brace_lt, ⟨⟨word, h.word_lt, h.announces, h.announced⟩, h.opens⟩, h.lasts⟩
  · rintro ⟨brace, hbrace, ⟨⟨word, hword, hannounces, hannounced⟩, hopens⟩, hlasts⟩
    exact ⟨word, brace, hword, hbrace, hannounces, hopens, hannounced, hlasts⟩

/-! ## The scope of a place -/

/-- The scope of a place is that of field definitions if they are opened before it, and if not, they
are announced there or not. -/
theorem scope_iff (tokens : List Token) {i : Nat} (hi : i ≤ tokens.length) :
    (Scope.outside.after (tokens.take i) = .fields ↔ FieldsOpened (tokens.map Token.kind) i) ∧
    (Scope.outside.after (tokens.take i) = .announced ↔
      FieldsAnnounced (tokens.map Token.kind) i ∧ ¬FieldsOpened (tokens.map Token.kind) i) := by
  induction i with
  | zero =>
    rw [List.take_zero, Scope.after_nil]
    exact ⟨iff_of_false (by decide) (not_since_zero _ _),
      iff_of_false (by decide) fun h ↦ not_since_zero _ _ h.1⟩
  | succ i ih =>
    obtain ⟨hfields, hannounced⟩ := ih (Nat.le_of_succ_le hi)
    have hkind : (tokens.map Token.kind)[i]? = some tokens[i].kind := by
      rw [List.getElem?_map, List.getElem?_eq_getElem hi, Option.map_some]
    rw [List.take_succ_eq_append_getElem hi, Scope.after_append, Scope.after_cons, Scope.after_nil,
      Scope.advance_eq_fields_iff, Scope.advance_eq_announced_iff, fieldsAnnounced_succ_iff hkind,
      fieldsOpened_succ_iff hkind]
    simp only [hfields, hannounced, ne_eq]
    generalize tokens[i].kind = kind
    by_cases hopened : FieldsOpened (tokens.map Token.kind) i
    · -- Open field definitions stay open up to a closing brace, which announces nothing.
      by_cases hright : kind = .rightBrace <;> simp [hopened, hright]
    · -- An opening brace opens what is announced, and leaves nothing announced.
      by_cases hleft : kind = .leftBrace <;> simp [hopened, hleft]

/-! ## Relabeled tokens -/

/-- A relabeled token differs in its kind only, which is the one that it has in its scope. -/
theorem getElem?_relabelFrom (scope : Scope) (tokens : List Token) (i : Nat) :
    (relabelFrom scope tokens)[i]? = tokens[i]?.map fun token ↦
      { token with kind := ((scope.after (tokens.take i)).advance token.kind).2 } := by
  induction tokens generalizing scope i with
  | nil => rfl
  | cons token tokens ih =>
    cases i with
    | zero => rfl
    | succ i => exact ih _ i

/-- Relabeled tokens are relabeled to themselves, wherever the first of them stands. -/
theorem relabelFrom_relabelFrom (scope : Scope) (tokens : List Token) :
    relabelFrom scope (relabelFrom scope tokens) = relabelFrom scope tokens := by
  induction tokens generalizing scope with
  | nil => rfl
  | cons token tokens ih =>
    simp only [relabelFrom, Scope.advance_advance, ih]

/--
Relabeling keeps the number and the order of tokens, their texts and their positions. A token gets
another kind exactly if it has that of a reserved word and field definitions are open where it
stands, and it is then a name. What is relabeled stays as it is when it is relabeled again.
-/
theorem relabel_stable (tokens : List Token) :
    (relabel tokens).length = tokens.length ∧
    (relabel tokens).map Token.text = tokens.map Token.text ∧
    (relabel tokens).map Token.position = tokens.map Token.position ∧
    (∀ i token, tokens[i]? = some token → ∃ kind,
      (relabel tokens)[i]? = some { token with kind := kind } ∧
      (kind ≠ token.kind ↔ token.kind.isReserved = true ∧
        ∃ word brace, OpensFields (tokens.map Token.kind) word brace i) ∧
      (kind = token.kind ∨ kind = .identifier)) ∧
    relabel (relabel tokens) = relabel tokens := by
  have htexts := map_relabelFrom (f := Token.text) (fun _ _ ↦ rfl) .outside tokens
  have hpositions := map_relabelFrom (f := Token.position) (fun _ _ ↦ rfl) .outside tokens
  have hlength := congrArg List.length htexts
  rw [List.length_map, List.length_map] at hlength
  refine ⟨hlength, htexts, hpositions, fun i token htoken ↦ ?_,
    relabelFrom_relabelFrom .outside tokens⟩
  have hrelabeled := getElem?_relabelFrom .outside tokens i
  rw [htoken, Option.map_some] at hrelabeled
  refine ⟨_, hrelabeled, ?_, Scope.advance_kind_eq_or _ _⟩
  have hi := (List.getElem?_eq_some_iff.1 htoken).1
  rw [Scope.advance_kind_ne_iff, (scope_iff tokens hi.le).1, exists_opensFields_iff]

/-- A second brace closes no field definitions, so that a word behind it is a name. -/
theorem relabel_stable_of_second_brace :
    let token (kind : TokenKind) (text : String) : Token := ⟨kind, text, .start⟩
    let tokens := [token .schema "schema", token .leftBrace "\x7b", token .leftBrace "\x7b",
      token .asWord "as"]
    tokens[3]? = some (token .asWord "as") ∧
      (∃ word brace, OpensFields (tokens.map Token.kind) word brace 3) ∧
      (relabel tokens)[3]? = some (token .identifier "as") := by
  intro token tokens
  have hopen : OpensFields (tokens.map Token.kind) 0 1 3 := by
    refine ⟨by decide, by decide, by decide, rfl, fun m hlt hm ↦ ?_, fun m hlt hm ↦ ?_⟩
    · omega
    · obtain rfl : m = 2 := by omega
      decide
  obtain ⟨-, -, -, hkinds, -⟩ := relabel_stable tokens
  obtain ⟨kind, hrelabeled, hchanges, hkind⟩ := hkinds 3 _ rfl
  obtain rfl := hkind.resolve_left (hchanges.2 ⟨rfl, 0, 1, hopen⟩)
  exact ⟨rfl, ⟨0, 1, hopen⟩, hrelabeled⟩

end SchemaLang
