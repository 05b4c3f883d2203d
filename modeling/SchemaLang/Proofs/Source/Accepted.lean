import SchemaLang.Proofs.Token.Scopes
import SchemaLang.Proofs.Tree.Acceptance
import SchemaLang.Source.Definitions

/-!
# Accepted sources

A source is accepted exactly when it is cut into lexemes, when its tokens are those of a unit of the
grammar, and when the items of the unit have distinct names (`compile_eq_ok_iff`). Its definitions
are then those of the trees of the unit.
-/

namespace SchemaLang

open Phrase

/-- The tokens of a source: those of its segments, and the end of the input. -/
theorem ofSource_tokens (source : String) : (TokenStream.ofSource source).tokens =
    relabel (Segment.tokens .start (Segment.ofText source.toList)) ++
      [Segment.endToken (Text.Position.start.after source.toList)] := by
  have hconcat := Segment.concat_ofText source.toList
  rw [TokenStream.ofSource, Segment.ofSegments_tokens, hconcat]
  exact relabelFrom_append_endToken _ _ _

theorem tokensOf_eq_ok_iff_stream {source : String} {tokens : List Token} :
    tokensOf source = .ok tokens ↔
      (TokenStream.ofSource source).strays = [] ∧
        (TokenStream.ofSource source).tokens = tokens := by
  rw [tokensOf]
  cases (TokenStream.ofSource source).strays <;> simp

/-- The tokens of a source: those of the lexemes that it is cut into, and the end of the input. -/
theorem tokensOf_eq_ok_iff {source : String} {tokens : List Token} :
    tokensOf source = .ok tokens ↔
      ∃ segments, Segment.Cut segments ∧ Segment.concat segments = source.toList ∧
        tokens = relabel (Segment.tokens .start segments) ++
          [Segment.endToken (Text.Position.start.after source.toList)] := by
  have hstrays : (TokenStream.ofSource source).strays = [] ↔
      ∀ text, Segment.stray text ∉ Segment.ofText source.toList :=
    Segment.ofSegments_strays_eq_nil
  rw [tokensOf_eq_ok_iff_stream, hstrays, ofSource_tokens]
  constructor
  · rintro ⟨hcut, rfl⟩
    exact ⟨_, Segment.cut_ofText hcut, Segment.concat_ofText _, rfl⟩
  · rintro ⟨segments, hcut, hconcat, rfl⟩
    rw [← hconcat, hcut.ofText_concat]
    exact ⟨hcut.stray_notMem, rfl⟩

theorem terminated_of_tokensOf {source : String} {tokens : List Token}
    (h : tokensOf source = .ok tokens) : Terminated tokens := by
  obtain ⟨segments, -, -, rfl⟩ := tokensOf_eq_ok_iff.1 h
  exact ⟨_, List.getLast?_concat, rfl⟩

/-- A source has the tokens of one unit only. -/
theorem unit_eq_of_tokensOf {source : String} {unit other : UnitPhrase} {stop last : Text.Position}
    (h : tokensOf source = .ok (tokens unit ++ [Segment.endToken stop]))
    (hother : tokensOf source = .ok (tokens other ++ [Segment.endToken last])) : unit = other := by
  have heq := Except.ok.inj (h.symm.trans hother)
  exact unit_tokens_injective (List.append_inj' heq rfl).1

/-- Tokens with the end of the input behind them are items exactly if they are those of a unit. -/
theorem parseItems_append_endToken {body : List Token} (p : Text.Position)
    (hbody : ∀ token ∈ body, token.kind ≠ .endOfInput) :
    parseItems (body ++ [Segment.endToken p]) = match TokenReader.items body with
      | .ok nodes => .ok nodes
      | .error refusal => .error (refusal.toError p) := by
  have hterminated : Terminated (body ++ [Segment.endToken p]) :=
    ⟨Segment.endToken p, List.getLast?_concat, rfl⟩
  exact parseItems_append_stop hbody rfl hterminated

/-- No token of a source but the last one is the end of the input. -/
theorem kind_of_tokensOf {source : String} {body : List Token} {p : Text.Position}
    (h : tokensOf source = .ok (body ++ [Segment.endToken p])) :
    ∀ token ∈ body, token.kind ≠ .endOfInput := by
  obtain ⟨segments, -, -, htokens⟩ := tokensOf_eq_ok_iff.1 h
  obtain ⟨rfl, -⟩ := List.append_inj' htokens rfl
  exact kind_of_mem_relabelFrom fun token htoken ↦ Segment.kind_of_mem_tokens htoken

/-- The items of a source are read from its tokens but the last one. -/
theorem itemsOf_eq {source : String} {body : List Token} {p : Text.Position}
    (h : tokensOf source = .ok (body ++ [Segment.endToken p])) :
    itemsOf source = match TokenReader.items body with
      | .ok nodes => .ok nodes
      | .error refusal => .error (refusal.toError p) := by
  rw [itemsOf, h, ok_bind, parseItems_append_endToken p (kind_of_tokensOf h)]

/-- The items of a source are the trees of a unit, which its tokens are those of. -/
theorem itemsOf_eq_ok_iff {source : String} {nodes : List ItemNode} :
    itemsOf source = .ok nodes ↔
      ∃ (unit : UnitPhrase) (p : Text.Position),
        tokensOf source = .ok (tokens unit ++ [Segment.endToken p]) ∧ unit.nodes = nodes := by
  constructor
  · intro h
    obtain ⟨input, hinput, -⟩ := bind_eq_ok.1 h
    obtain ⟨segments, -, -, rfl⟩ := tokensOf_eq_ok_iff.1 hinput
    rw [itemsOf_eq hinput] at h
    cases hread : TokenReader.items (relabel (Segment.tokens .start segments)) with
    | error refusal =>
      rw [hread] at h
      cases h
    | ok read =>
      rw [hread] at h
      cases h
      obtain ⟨unit, rfl, hunit⟩ := TokenReader.items_eq_ok_iff.1 hread
      rw [← hunit] at hinput
      exact ⟨unit, _, hinput, rfl⟩
  · rintro ⟨unit, p, htokens, rfl⟩
    rw [itemsOf_eq htokens, TokenReader.items_unit]

/--
A source is accepted exactly if its tokens are those of a unit with distinct names, and its
definitions are those of the trees of the unit.
-/
theorem compile_eq_ok_iff {source : String} {definitions : List Definition} :
    compile source = .ok definitions ↔
      ∃ (unit : UnitPhrase) (p : Text.Position),
        tokensOf source = .ok (tokens unit ++ [Segment.endToken p]) ∧
        verifyNames unit.nodes = .ok () ∧ unit.nodes.map Definition.ofNode = definitions := by
  constructor
  · intro h
    obtain ⟨nodes, hverified, hdefinitions⟩ := bind_eq_ok.1 h
    obtain ⟨_, hitems, hnames⟩ := bind_eq_ok.1 hverified
    obtain ⟨_, hverify, hnodes⟩ := bind_eq_ok.1 hnames
    obtain ⟨unit, p, htokens, rfl⟩ := itemsOf_eq_ok_iff.1 hitems
    cases hnodes
    cases hdefinitions
    exact ⟨unit, p, htokens, hverify, rfl⟩
  · rintro ⟨unit, p, htokens, hverify, rfl⟩
    have hitems : itemsOf source = .ok unit.nodes :=
      itemsOf_eq_ok_iff.2 ⟨unit, p, htokens, rfl⟩
    rw [compile, verifiedItemsOf, hitems, ok_bind, hverify]
    rfl

/-- A source whose tokens cannot be read is refused with the error of the reader. -/
theorem compile_of_refused {source : String} {body : List Token} {p : Text.Position}
    {refusal : Refusal} (h : tokensOf source = .ok (body ++ [Segment.endToken p]))
    (hread : TokenReader.items body = .error refusal) :
    compile source = .error (refusal.toError p) := by
  have hitems : itemsOf source = .error (refusal.toError p) := by
    rw [itemsOf_eq h, hread]
  rw [compile, verifiedItemsOf, hitems]
  rfl

end SchemaLang
