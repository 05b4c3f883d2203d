import SchemaLang.Proofs.Tree.Rules

/-!
# One token ahead

A reader looks one token ahead: behind the phrase that it takes only the next token counts, and
where it refuses, the tokens before are the start of a phrase while nothing that starts with them
and the next one is taken (`StopsEarly`). A refusal in the second of two readers is one behind a
whole phrase of the first, and one among repeated phrases is in the next of them, so that a rule is
read this way if its parts are.
-/

namespace SchemaLang

open Phrase

namespace TokenReader

/-- The tokens that are left where a refusal is. -/
inductive RefusedAt : List Token → Refusal → Prop
  | unexpected (expected : Expectation) (left : List Token) :
      RefusedAt left (.unexpected expected left)
  | arraySize {number : Token} (rest : List Token) (hkind : number.kind = .numberLiteral)
      (hsize : isArraySize number.text = false) : RefusedAt (number :: rest) (.arraySize number)

/-- Tokens none of which is the end of the input. -/
def Inner (input : List Token) : Prop := ∀ token ∈ input, token.kind ≠ .endOfInput

/--
A reader takes phrases of a rule and sees one token behind them. The tokens before a refusal are
the start of a phrase, and with the token at the refusal every list that starts with them is
refused.
-/
structure StopsEarly {α : Type} (δ : Type) [Phrase δ] (reader : TokenReader α) : Prop where
  taken : ∀ {input value rest}, reader input = .ok (value, rest) →
    ∃ phrase : δ, input = tokens phrase ++ rest ∧ Inner (tokens phrase) ∧
      ∀ other, other.head? = rest.head? → reader (tokens phrase ++ other) = .ok (value, other)
  refused : ∀ {input refusal}, reader input = .error refusal →
    ∃ front left, input = front ++ left ∧ RefusedAt left refusal ∧
      (∃ phrase : δ, front <+: tokens phrase) ∧
      ∀ other, other.head? = left.head? → ∃ refusal, reader (front ++ other) = .error refusal

/-! ## The next token -/

theorem startsWith_congr {kind : TokenKind} {input other : List Token}
    (h : other.head? = input.head?) : startsWith kind other = startsWith kind input := by
  rw [startsWith, startsWith, h]

theorem exists_cons_of_startsWith {kind : TokenKind} {input : List Token}
    (h : startsWith kind input = true) :
    ∃ token rest, input = token :: rest ∧ token.kind = kind := by
  cases input with
  | nil => cases h
  | cons token rest => exact ⟨token, rest, rfl, of_decide_eq_true h⟩

theorem head?_append_congr (front : List Token) {input other : List Token}
    (h : other.head? = input.head?) : (front ++ other).head? = (front ++ input).head? := by
  rw [List.head?_append, List.head?_append, h]

/-! ## Phrases to go on with -/

instance {kind : TokenKind} : Inhabited (Terminal kind) := ⟨⟨⟨kind, "", .start⟩, rfl⟩⟩

instance : Inhabited LiteralTerminal := ⟨⟨⟨.identifier, "", .start⟩, .inl rfl⟩⟩

instance : Inhabited OptionPhrase :=
  ⟨⟨default, default, default⟩⟩

instance : Inhabited BlockPhrase := ⟨⟨default, [], default⟩⟩

instance : Inhabited ParamsPhrase := ⟨.named default⟩

instance : Inhabited ReturnsPhrase := ⟨⟨default, default⟩⟩

instance : Inhabited SignaturePhrase :=
  ⟨.paramsFirst default default⟩

instance : Inhabited ItemPhrase :=
  ⟨.schema ⟨default, default, default⟩⟩

/-! ## How readers are combined -/

section Combinators

variable {α β δ ε : Type} [Phrase δ] [Phrase ε] {reader : TokenReader α} {head : TokenKind}

/-- A reader that refuses tokens before it takes any. -/
theorem refused_at_once [Inhabited δ] {expected : Expectation} {input : List Token}
    {refusal : Refusal} (h : refusal = .unexpected expected input)
    (hother : ∀ other, other.head? = input.head? → ∃ refusal, reader other = .error refusal) :
    ∃ front left, input = front ++ left ∧ RefusedAt left refusal ∧
      (∃ phrase : δ, front <+: tokens phrase) ∧
      ∀ other, other.head? = left.head? → ∃ refusal, reader (front ++ other) = .error refusal :=
  ⟨[], input, rfl, h ▸ .unexpected expected input, ⟨default, List.nil_prefix⟩, hother⟩

theorem take_of_not_startsWith {kind : TokenKind} (expected : Expectation) {input : List Token}
    (h : startsWith kind input = false) :
    take kind expected input = .error (.unexpected expected input) := by
  cases input with
  | nil => rfl
  | cons token rest =>
    rw [startsWith_cons, decide_eq_false_iff_not] at h
    exact if_neg h

theorem stopsEarly_take {kind : TokenKind} (expected : Expectation) (hkind : kind ≠ .endOfInput) :
    StopsEarly (Terminal kind) (take kind expected) where
  taken h := by
    obtain ⟨terminal, rfl, rfl⟩ := (reads_take kind expected).sound h
    refine ⟨terminal, rfl, fun token htoken ↦ ?_, fun other _ ↦ ?_⟩
    · rw [List.mem_singleton.1 htoken, terminal.2]
      exact hkind
    · exact (reads_take kind expected).complete terminal other (startsWithNone_nil _)
  refused {input refusal} h := by
    cases hstart : startsWith kind input with
    | true =>
      obtain ⟨token, rest, rfl, hfirst⟩ := exists_cons_of_startsWith hstart
      rw [take, if_pos hfirst] at h
      cases h
    | false =>
      rw [take_of_not_startsWith expected hstart] at h
      cases h
      exact refused_at_once rfl fun other hother ↦
        ⟨_, take_of_not_startsWith expected ((startsWith_congr hother).trans hstart)⟩

theorem stopsEarly_literal (expected : Expectation) :
    StopsEarly LiteralTerminal (literal expected) where
  taken h := by
    obtain ⟨terminal, rfl, rfl⟩ := (reads_literal expected).sound h
    refine ⟨terminal, rfl, fun token htoken ↦ ?_, fun other _ ↦ ?_⟩
    · rw [List.mem_singleton.1 htoken]
      rcases terminal.2 with hkind | hkind | hkind <;> simp [hkind]
    · exact (reads_literal expected).complete terminal other (startsWithNone_nil _)
  refused {input refusal} h := by
    cases input with
    | nil =>
      cases h
      refine refused_at_once rfl fun other hother ↦ ⟨.unexpected expected [], ?_⟩
      rw [List.head?_eq_none_iff.1 hother, literal]
    | cons token rest =>
      rw [literal] at h
      split at h
      case h_4 hname hnumber hstring =>
        cases h
        refine refused_at_once rfl fun other hother ↦ ?_
        obtain ⟨more, rfl⟩ := List.head?_eq_some_iff.1 hother
        refine ⟨.unexpected expected (token :: more), ?_⟩
        rw [literal]
        split <;> first | contradiction | rfl
      all_goals cases h

theorem stopsEarly_fail [Inhabited δ] (expected : Expectation) :
    StopsEarly δ
      (fun input ↦ (.error (.unexpected expected input) : Except Refusal (α × List Token))) where
  taken h := nomatch h
  refused h := refused_at_once (Except.error.inj h).symm fun _ _ ↦ ⟨_, rfl⟩

/-- The phrases of a rule are phrases of another one with the same tokens. -/
theorem StopsEarly.mono (h : StopsEarly δ reader) (f : δ → ε)
    (hf : ∀ phrase, tokens (f phrase) = tokens phrase) : StopsEarly ε reader where
  taken hread := by
    obtain ⟨phrase, rfl, hinner, hother⟩ := h.taken hread
    rw [← hf] at hinner hother ⊢
    exact ⟨f phrase, rfl, hinner, hother⟩
  refused hread := by
    obtain ⟨front, left, rfl, hleft, ⟨phrase, hfront⟩, hother⟩ := h.refused hread
    rw [← hf] at hfront
    exact ⟨front, left, rfl, hleft, ⟨f phrase, hfront⟩, hother⟩

/-- Two readers one after the other. A refusal of the second is behind a phrase of the first. -/
theorem StopsEarly.bind [Inhabited ε] (h : StopsEarly δ reader)
    {next : α × List Token → Except Refusal (β × List Token)}
    (hnext : ∀ value, StopsEarly ε fun rest ↦ next (value, rest)) :
    StopsEarly (δ × ε) fun input ↦ reader input >>= next where
  taken hread := by
    obtain ⟨⟨value, behind⟩, hfirst, hsecond⟩ := bind_eq_ok.1 hread
    obtain ⟨p, rfl, hinner, hother⟩ := h.taken hfirst
    obtain ⟨q, rfl, hinner', hother'⟩ := (hnext value).taken hsecond
    refine ⟨(p, q), (List.append_assoc ..).symm, ?_, fun other hhead ↦ ?_⟩
    · exact List.forall_mem_append.2 ⟨hinner, hinner'⟩
    · rw [tokens_pair, List.append_assoc, hother _ (head?_append_congr _ hhead), ok_bind]
      exact hother' other hhead
  refused {input refusal} hread := by
    cases hfirst : reader input with
    | error refusal' =>
      rw [hfirst] at hread
      cases hread
      obtain ⟨front, left, rfl, hleft, ⟨p, hfront⟩, hother⟩ := h.refused hfirst
      refine ⟨front, left, rfl, hleft, ?_, fun other hhead ↦ ?_⟩
      · exact ⟨(p, default), hfront.trans (List.prefix_append _ _)⟩
      · obtain ⟨refusal, hrefusal⟩ := hother other hhead
        exact ⟨refusal, by rw [hrefusal, error_bind]⟩
    | ok answer =>
      obtain ⟨value, behind⟩ := answer
      rw [hfirst, ok_bind] at hread
      obtain ⟨p, rfl, -, hother⟩ := h.taken hfirst
      obtain ⟨front, left, rfl, hleft, ⟨q, hfront⟩, hother'⟩ := (hnext value).refused hread
      refine ⟨tokens p ++ front, left, (List.append_assoc ..).symm, hleft, ?_, fun other hhead ↦ ?_⟩
      · exact ⟨(p, q), (List.prefix_append_right_inj _).2 hfront⟩
      · rw [List.append_assoc, hother _ (head?_append_congr _ hhead), ok_bind]
        exact hother' other hhead

theorem StopsEarly.behind [Inhabited δ] (h : StopsEarly δ reader) {kind : TokenKind}
    (hkind : kind ≠ .endOfInput) (expected : Expectation) :
    StopsEarly (Terminal kind × δ) (TokenReader.behind kind expected reader) := by
  apply (stopsEarly_take expected hkind).bind
  intro mark
  exact h

theorem StopsEarly.map (h : StopsEarly δ reader) (f : α → β) :
    StopsEarly δ fun input ↦ (reader input).map fun answer ↦ (f answer.1, answer.2) where
  taken hread := by
    obtain ⟨⟨value, behind⟩, hfirst, heq⟩ := map_eq_ok.1 hread
    cases heq
    obtain ⟨p, rfl, hinner, hother⟩ := h.taken hfirst
    exact ⟨p, rfl, hinner, fun other hhead ↦ by rw [hother other hhead, map_ok]⟩
  refused {input refusal} hread := by
    cases hfirst : reader input with
    | ok answer =>
      rw [hfirst] at hread
      cases hread
    | error refusal' =>
      rw [hfirst] at hread
      cases hread
      obtain ⟨front, left, rfl, hleft, hphrase, hother⟩ := h.refused hfirst
      refine ⟨front, left, rfl, hleft, hphrase, fun other hhead ↦ ?_⟩
      obtain ⟨refusal, hrefusal⟩ := hother other hhead
      exact ⟨refusal, by rw [hrefusal, map_error]⟩

/-- The next token decides between two readers. -/
theorem StopsEarly.ite (kind : TokenKind) {reader other : TokenReader α} (h : StopsEarly δ reader)
    (h' : StopsEarly δ other) :
    StopsEarly δ fun input ↦ if startsWith kind input then reader input else other input where
  taken {input value rest} hread := by
    split at hread
    case isTrue hstart =>
      obtain ⟨p, rfl, hinner, hother⟩ := h.taken hread
      refine ⟨p, rfl, hinner, fun other hhead ↦ ?_⟩
      rw [startsWith_congr (head?_append_congr _ hhead), if_pos hstart]
      exact hother other hhead
    case isFalse hstart =>
      obtain ⟨p, rfl, hinner, hother⟩ := h'.taken hread
      refine ⟨p, rfl, hinner, fun other hhead ↦ ?_⟩
      rw [startsWith_congr (head?_append_congr _ hhead), if_neg hstart]
      exact hother other hhead
  refused {input refusal} hread := by
    split at hread
    case isTrue hstart =>
      obtain ⟨front, left, rfl, hleft, hphrase, hother⟩ := h.refused hread
      refine ⟨front, left, rfl, hleft, hphrase, fun other hhead ↦ ?_⟩
      rw [startsWith_congr (head?_append_congr _ hhead), if_pos hstart]
      exact hother other hhead
    case isFalse hstart =>
      obtain ⟨front, left, rfl, hleft, hphrase, hother⟩ := h'.refused hread
      refine ⟨front, left, rfl, hleft, hphrase, fun other hhead ↦ ?_⟩
      rw [startsWith_congr (head?_append_congr _ hhead), if_neg hstart]
      exact hother other hhead

/-- A reader that takes nothing. -/
theorem stopsEarly_none (value : β) :
    StopsEarly (Option δ) fun input ↦ (.ok (value, input) : Except Refusal (β × List Token)) where
  taken hread := by
    cases hread
    exact ⟨none, rfl, fun _ hmem ↦ absurd hmem List.not_mem_nil, fun _ _ ↦ rfl⟩
  refused hread := nomatch hread

theorem StopsEarly.optional (h : StopsEarly δ reader) (kind : TokenKind) :
    StopsEarly (Option δ) (TokenReader.optional kind reader) :=
  .ite kind ((h.map some).mono some fun _ ↦ rfl) (stopsEarly_none none)

/-- A refusal among repeated phrases is one in the next of them. -/
theorem StopsEarly.many (h : StopsEarly δ reader) (hhead : Headed δ head) :
    StopsEarly (List δ) (TokenReader.many head reader) where
  taken {input value rest} hread := by
    fun_induction TokenReader.many head reader input generalizing value rest with
    | case1 => simp at hread
    | case2 input hstart first behind hfirst hlength ih =>
      obtain ⟨⟨values, rest⟩, hvalues, heq⟩ := map_eq_ok.1 hread
      cases heq
      obtain ⟨p, rfl, hinner, hother⟩ := h.taken hfirst
      obtain ⟨phrases, rfl, hinner', hother'⟩ := ih hvalues
      refine ⟨p :: phrases, (List.append_assoc ..).symm, ?_, fun other hhead' ↦ ?_⟩
      · exact List.forall_mem_append.2 ⟨hinner, hinner'⟩
      · rw [tokens_cons, List.append_assoc,
          many_of_ok hhead (hother _ (head?_append_congr _ hhead')), hother' other hhead', map_ok]
    | case3 input hstart first behind hfirst hlength =>
      -- A phrase with a first token of its own is not empty.
      obtain ⟨p, rfl, -, -⟩ := h.taken hfirst
      have hpos := hhead.length_pos p
      rw [List.length_append] at hlength
      omega
    | case4 input hstart =>
      cases hread
      refine ⟨[], rfl, fun _ hmem ↦ absurd hmem List.not_mem_nil, fun other hhead' ↦ ?_⟩
      rw [tokens_nil, List.nil_append, TokenReader.many, startsWith_congr hhead', if_neg hstart]
  refused {input refusal} hread := by
    fun_induction TokenReader.many head reader input with
    | case1 input hstart refusal' hfirst =>
      cases hread
      obtain ⟨front, left, rfl, hleft, ⟨p, hfront⟩, hother⟩ := h.refused hfirst
      refine ⟨front, left, rfl, hleft, ⟨[p], ?_⟩, fun other hhead' ↦ ?_⟩
      · rwa [tokens_cons, tokens_nil, List.append_nil]
      · obtain ⟨refusal, hrefusal⟩ := hother other hhead'
        refine ⟨refusal, ?_⟩
        rw [TokenReader.many, startsWith_congr (head?_append_congr _ hhead'), if_pos hstart,
          hrefusal]
    | case2 input hstart first behind hfirst hlength ih =>
      cases hmore : TokenReader.many head reader behind with
      | ok answer =>
        rw [hmore] at hread
        cases hread
      | error refusal' =>
        rw [hmore] at hread
        cases hread
        obtain ⟨p, rfl, -, hother⟩ := h.taken hfirst
        obtain ⟨front, left, rfl, hleft, ⟨phrases, hfront⟩, hother'⟩ := ih hmore
        refine ⟨tokens p ++ front, left, (List.append_assoc ..).symm, hleft, ?_,
          fun other hhead' ↦ ?_⟩
        · exact ⟨p :: phrases, (List.prefix_append_right_inj _).2 hfront⟩
        · obtain ⟨refusal, hrefusal⟩ := hother' other hhead'
          refine ⟨refusal, ?_⟩
          rw [List.append_assoc, many_of_ok hhead (hother _ (head?_append_congr _ hhead')),
            hrefusal, map_error]
    | case3 => simp at hread
    | case4 => simp at hread

/-- A reader behind which nothing more is read. -/
theorem StopsEarly.bind_return (h : StopsEarly δ reader)
    {next : α × List Token → Except Refusal (β × List Token)} (f : α → β)
    (hnext : ∀ value rest, next (value, rest) = .ok (f value, rest)) :
    StopsEarly δ fun input ↦ reader input >>= next := by
  have heq : (fun input ↦ reader input >>= next) =
      fun input ↦ (reader input).map fun answer ↦ (f answer.1, answer.2) := by
    funext input
    cases reader input with
    | error refusal => rfl
    | ok answer => exact hnext answer.1 answer.2
  rw [heq]
  exact h.map f

theorem stopsEarly_takeIf {kind : TokenKind} (hkind : kind ≠ .endOfInput) :
    StopsEarly (Option (Terminal kind)) fun input ↦
      (.ok (takeIf kind input) : Except Refusal (Option Token × List Token)) := by
  have heq : TokenReader.optional kind (take kind .definition) =
      fun input ↦ (.ok (takeIf kind input) : Except Refusal (Option Token × List Token)) := by
    funext input
    cases input with
    | nil => rfl
    | cons token rest =>
      rw [TokenReader.optional, startsWith_cons, take, takeIf]
      by_cases h : token.kind = kind <;> simp [h, map_ok]
  rw [← heq]
  exact (stopsEarly_take .definition hkind).optional kind

end Combinators

end TokenReader

end SchemaLang
