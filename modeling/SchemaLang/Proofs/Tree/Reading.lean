import SchemaLang.Proofs.Result
import SchemaLang.Proofs.Tree.Phrase

/-!
# Readers and phrases

Each reader of tokens belongs to a rule of the grammar. It takes a phrase of its rule from the front
of the tokens, whatever follows (`Reads.complete`), and what it takes is always a phrase
(`Reads.sound`). Only where a rule ends in something optional or repeated, the tokens that follow
must not look like more of it.
-/

namespace SchemaLang.TokenReader

open Phrase

/-! ## First tokens -/

@[simp] theorem startsWith_nil (kind : TokenKind) : startsWith kind [] = false := rfl

@[simp] theorem startsWith_cons (kind : TokenKind) (token : Token) (rest : List Token) :
    startsWith kind (token :: rest) = decide (token.kind = kind) := rfl

/-- Tokens start with none of some kinds. -/
def StartsWithNone (kinds : List TokenKind) (tokens : List Token) : Prop :=
  ∀ kind ∈ kinds, startsWith kind tokens = false

theorem startsWithNone_nil (tokens : List Token) : StartsWithNone [] tokens :=
  fun _ h ↦ absurd h List.not_mem_nil

theorem StartsWithNone.cons {kind : TokenKind} {kinds : List TokenKind} {tokens : List Token}
    (hkind : startsWith kind tokens = false) (hkinds : StartsWithNone kinds tokens) :
    StartsWithNone (kind :: kinds) tokens := by
  intro other hother
  rcases List.mem_cons.1 hother with rfl | hother
  · exact hkind
  · exact hkinds other hother

theorem StartsWithNone.head {kind : TokenKind} {kinds : List TokenKind} {tokens : List Token}
    (h : StartsWithNone (kind :: kinds) tokens) : startsWith kind tokens = false :=
  h kind List.mem_cons_self

theorem StartsWithNone.tail {kind : TokenKind} {kinds : List TokenKind} {tokens : List Token}
    (h : StartsWithNone (kind :: kinds) tokens) : StartsWithNone kinds tokens :=
  fun other hother ↦ h other (List.mem_cons_of_mem kind hother)

/-- Tokens that start with another kind start with none of some kinds. -/
theorem startsWithNone_of_notMem {kind : TokenKind} {kinds : List TokenKind} {tokens : List Token}
    (hstart : startsWith kind tokens = true) (hkind : kind ∉ kinds) :
    StartsWithNone kinds tokens := by
  cases tokens with
  | nil => simp at hstart
  | cons token tokens =>
    rw [startsWith_cons, decide_eq_true_eq] at hstart
    intro other hother
    rw [startsWith_cons, decide_eq_false_iff_not, hstart]
    exact ne_of_mem_of_not_mem hother hkind ∘ Eq.symm

/-- The phrases of a rule all start with a token of one kind. -/
def Headed (δ : Type) [Phrase δ] (kind : TokenKind) : Prop :=
  ∀ phrase : δ, ∃ (first : Terminal kind) (more : List Token), tokens phrase = first.1 :: more

section Headed

variable {δ : Type} [Phrase δ] {head : TokenKind}

theorem Headed.startsWith (h : Headed δ head) (phrase : δ) (rest : List Token) :
    startsWith head (tokens phrase ++ rest) = true := by
  obtain ⟨first, more, hphrase⟩ := h phrase
  rw [hphrase, List.cons_append, startsWith_cons, decide_eq_true_eq]
  exact first.2

theorem Headed.length_pos (h : Headed δ head) (phrase : δ) : 0 < (tokens phrase).length := by
  obtain ⟨first, more, hphrase⟩ := h phrase
  rw [hphrase]
  exact Nat.succ_pos _

/-- What may or may not start with its own kind hides no other kind behind it. -/
theorem Headed.startsWithNone_option (h : Headed δ head) {kinds : List TokenKind}
    (hkinds : head ∉ kinds) (phrase : Option δ) {rest : List Token}
    (hrest : StartsWithNone kinds rest) : StartsWithNone kinds (tokens phrase ++ rest) := by
  cases phrase with
  | none => exact hrest
  | some phrase => exact startsWithNone_of_notMem (h.startsWith phrase rest) hkinds

theorem Headed.startsWithNone_list (h : Headed δ head) {kinds : List TokenKind}
    (hkinds : head ∉ kinds) (phrases : List δ) {rest : List Token}
    (hrest : StartsWithNone kinds rest) : StartsWithNone kinds (tokens phrases ++ rest) := by
  cases phrases with
  | nil => exact hrest
  | cons phrase phrases =>
    rw [tokens_cons, List.append_assoc]
    exact startsWithNone_of_notMem (h.startsWith phrase _) hkinds

theorem headed_terminal (kind : TokenKind) : Headed (Terminal kind) kind :=
  fun terminal ↦ ⟨terminal, [], rfl⟩

theorem headed_pair {ε : Type} [Phrase ε] (h : Headed δ head) : Headed (δ × ε) head := by
  intro pair
  obtain ⟨first, more, hphrase⟩ := h pair.1
  refine ⟨first, more ++ tokens pair.2, ?_⟩
  rw [← List.cons_append, ← hphrase]
  rfl

end Headed

/-! ## What it means to read a rule -/

/--
A reader takes exactly the phrases of a rule from the front of the tokens and gives their trees.
Tokens of the kinds `stops` would be taken for more of the phrase.
-/
structure Reads {δ α : Type} [Phrase δ] (reader : TokenReader α) (node : δ → α)
    (stops : List TokenKind) : Prop where
  complete : ∀ phrase rest, StartsWithNone stops rest →
    reader (tokens phrase ++ rest) = .ok (node phrase, rest)
  sound : ∀ {input value rest}, reader input = .ok (value, rest) →
    ∃ phrase, node phrase = value ∧ input = tokens phrase ++ rest

/-- What follows a reader goes on with the tree of the phrase and the tokens behind it. -/
theorem Reads.bind {δ α β : Type} [Phrase δ] {reader : TokenReader α} {node : δ → α}
    {stops : List TokenKind} (h : Reads reader node stops) (phrase : δ) {rest : List Token}
    (hrest : StartsWithNone stops rest) (next : α × List Token → Except Refusal β) :
    (reader (tokens phrase ++ rest) >>= next) = next (node phrase, rest) := by
  rw [h.complete phrase rest hrest, ok_bind]

/-- What succeeds behind a reader goes on behind a phrase. -/
theorem Reads.of_bind {δ α β : Type} [Phrase δ] {reader : TokenReader α} {node : δ → α}
    {stops : List TokenKind} (h : Reads reader node stops) {input : List Token}
    {next : α × List Token → Except Refusal β} {value : β}
    (hread : (reader input >>= next) = .ok value) :
    ∃ phrase rest, input = tokens phrase ++ rest ∧ next (node phrase, rest) = .ok value := by
  obtain ⟨⟨taken, rest⟩, htaken, hnext⟩ := bind_eq_ok.1 hread
  obtain ⟨phrase, rfl, rfl⟩ := h.sound htaken
  exact ⟨phrase, rest, rfl, hnext⟩

section Combinators

variable {δ α : Type} [Phrase δ] {reader : TokenReader α} {node : δ → α}
  {stops : List TokenKind} {head : TokenKind}

theorem reads_take (kind : TokenKind) (expected : Expectation) :
    Reads (take kind expected) (fun terminal : Terminal kind ↦ terminal.1) [] where
  complete terminal rest _ := if_pos terminal.2
  sound {input value rest} h := by
    cases input with
    | nil => simp [take] at h
    | cons token input =>
      rw [take] at h
      split at h
      case isTrue hkind =>
        simp only [Except.ok.injEq, Prod.mk.injEq] at h
        obtain ⟨rfl, rfl⟩ := h
        exact ⟨⟨token, hkind⟩, rfl, rfl⟩
      case isFalse => simp at h

theorem reads_literal (expected : Expectation) :
    Reads (literal expected) (fun terminal : LiteralTerminal ↦ terminal.1) [] where
  complete terminal rest _ := by
    obtain ⟨token, hkind⟩ := terminal
    rcases hkind with hkind | hkind | hkind <;> simp [literal, hkind]
  sound {input value rest} h := by
    cases input with
    | nil => simp [literal] at h
    | cons token input =>
      rw [literal] at h
      split at h
      all_goals first
        | simp only [Except.ok.injEq, Prod.mk.injEq] at h
          obtain ⟨rfl, rfl⟩ := h
          exact ⟨⟨token, by simp [*]⟩, rfl, rfl⟩
        | simp at h

theorem Reads.behind (h : Reads reader node stops) (kind : TokenKind) (expected : Expectation) :
    Reads (behind kind expected reader) (fun pair : Terminal kind × δ ↦ node pair.2) stops where
  complete pair rest hrest := by
    refine ((reads_take _ _).bind pair.1 (startsWithNone_nil _) _).trans ?_
    exact h.complete pair.2 rest hrest
  sound hread := by
    obtain ⟨mark, _, rfl, hbehind⟩ := (reads_take _ _).of_bind hread
    obtain ⟨phrase, rfl, rfl⟩ := h.sound hbehind
    exact ⟨(mark, phrase), rfl, rfl⟩

/-- A reader takes the phrases of every rule that has the same tokens and trees. -/
theorem Reads.congr {ε : Type} [Phrase ε] {other : ε → α} (h : Reads reader node stops)
    (f : δ → ε) (hf : f.Surjective) (htokens : ∀ phrase, tokens (f phrase) = tokens phrase)
    (hnode : ∀ phrase, other (f phrase) = node phrase) : Reads reader other stops where
  complete phrase rest hrest := by
    obtain ⟨phrase, rfl⟩ := hf phrase
    rw [htokens, hnode]
    exact h.complete phrase rest hrest
  sound hread := by
    obtain ⟨phrase, rfl, rfl⟩ := h.sound hread
    exact ⟨f phrase, hnode phrase, by rw [htokens]⟩

theorem takeIf_tokens {kind : TokenKind} (terminal : Option (Terminal kind)) {rest : List Token}
    (hrest : startsWith kind rest = false) :
    takeIf kind (tokens terminal ++ rest) = (terminal.map (·.1), rest) := by
  cases terminal with
  | some terminal => exact if_pos terminal.2
  | none =>
    cases rest with
    | nil => rfl
    | cons token rest =>
      rw [startsWith_cons, decide_eq_false_iff_not] at hrest
      exact if_neg hrest

theorem takeIf_sound {kind : TokenKind} {input rest : List Token} {value : Option Token}
    (h : takeIf kind input = (value, rest)) :
    ∃ terminal : Option (Terminal kind), terminal.map (·.1) = value ∧
      input = tokens terminal ++ rest := by
  cases input with
  | nil =>
    simp only [takeIf, Prod.mk.injEq] at h
    exact ⟨none, h.1, h.2⟩
  | cons token input =>
    rw [takeIf] at h
    split at h
    case isTrue hkind =>
      simp only [Prod.mk.injEq] at h
      exact ⟨some ⟨token, hkind⟩, h.1, congrArg (token :: ·) h.2⟩
    case isFalse =>
      simp only [Prod.mk.injEq] at h
      exact ⟨none, h.1, h.2⟩

theorem Reads.optional (h : Reads reader node stops) (hhead : Headed δ head) :
    Reads (optional head reader) (Option.map node) (head :: stops) where
  complete phrase rest hrest := by
    cases phrase with
    | none => simp [TokenReader.optional, hrest.head]
    | some phrase =>
      rw [TokenReader.optional, tokens_some, if_pos (hhead.startsWith phrase rest),
        h.complete phrase rest hrest.tail]
      rfl
  sound {input value rest} hread := by
    rw [TokenReader.optional] at hread
    split at hread
    · obtain ⟨⟨taken, rest⟩, htaken, heq⟩ := map_eq_ok.1 hread
      obtain ⟨phrase, rfl, rfl⟩ := h.sound htaken
      simp only [Prod.mk.injEq] at heq
      obtain ⟨rfl, rfl⟩ := heq
      exact ⟨some phrase, rfl, rfl⟩
    · simp only [Except.ok.injEq, Prod.mk.injEq] at hread
      obtain ⟨rfl, rfl⟩ := hread
      exact ⟨none, rfl, rfl⟩

/-- One more phrase that is taken in front of what a repeated reader reads. -/
theorem many_of_ok (hhead : Headed δ head) {phrase : δ} {value : α} {rest : List Token}
    (h : reader (tokens phrase ++ rest) = .ok (value, rest)) :
    many head reader (tokens phrase ++ rest) =
      (many head reader rest).map fun (values, rest) ↦ (value :: values, rest) := by
  have hlength : rest.length < (tokens phrase ++ rest).length := by
    have := hhead.length_pos phrase
    rw [List.length_append]
    omega
  rw [many, if_pos (hhead.startsWith phrase rest), h]
  exact if_pos hlength

theorem many_tokens_append (h : Reads reader node stops) (hhead : Headed δ head) (phrase : δ)
    {rest : List Token} (hrest : StartsWithNone stops rest) :
    many head reader (tokens phrase ++ rest) =
      (many head reader rest).map fun (values, rest) ↦ (node phrase :: values, rest) :=
  many_of_ok hhead (h.complete phrase rest hrest)

theorem Reads.many (h : Reads reader node stops) (hhead : Headed δ head)
    (hstops : head ∉ stops) :
    Reads (TokenReader.many head reader) (List.map node) (head :: stops) where
  complete phrases rest hrest := by
    induction phrases with
    | nil =>
      rw [TokenReader.many, if_neg]
      · rfl
      · simp [hrest.head]
    | cons phrase phrases ih =>
      have hnext := hhead.startsWithNone_list hstops phrases hrest.tail
      rw [tokens_cons, List.append_assoc, many_tokens_append h hhead phrase hnext, ih]
      rfl
  sound {input value rest} hread := by
    fun_induction TokenReader.many head reader input generalizing value rest with
    | case1 input hstart refusal hfirst => simp at hread
    | case2 input hstart first behind hfirst hlength ih =>
      obtain ⟨⟨values, rest⟩, hvalues, heq⟩ := map_eq_ok.1 hread
      obtain ⟨phrase, rfl, rfl⟩ := h.sound hfirst
      obtain ⟨phrases, rfl, rfl⟩ := ih hvalues
      simp only [Prod.mk.injEq] at heq
      obtain ⟨rfl, rfl⟩ := heq
      exact ⟨phrase :: phrases, rfl, (List.append_assoc ..).symm⟩
    | case3 input hstart first behind hfirst hlength =>
      obtain ⟨phrase, rfl, rfl⟩ := h.sound hfirst
      simp only [Except.ok.injEq, Prod.mk.injEq] at hread
      obtain ⟨rfl, rfl⟩ := hread
      exact ⟨[phrase], rfl, by simp⟩
    | case4 input hstart =>
      simp only [Except.ok.injEq, Prod.mk.injEq] at hread
      obtain ⟨rfl, rfl⟩ := hread
      exact ⟨[], rfl, rfl⟩

end Combinators

end SchemaLang.TokenReader
