import SchemaLang.Proofs.Number.Whole
import SchemaLang.Proofs.Token.Blanks

/-!
# Text inserted behind a token

Characters that are no part of a word, of a number or of a fraction end every token that stands in
front of them, whatever follows (`TokenStream.gives_segments`). What such characters begin can be
inserted behind any token of a text: the tokens in front stay as they are, and the text that is
inserted is read in front of what follows it, piece by piece (`TokenStream.Gives`).
-/

namespace SchemaLang

open Text (StopsRun stopsRun_cons stopsRun_nil)

namespace LexemeForm

/-! ## Characters that end tokens -/

/-- A character that continues no token in front of it. -/
def endsToken (c : Char) : Bool := !continuesWord c && !Text.isDecimalDigit c && c ≠ '.'

theorem endsToken_iff {c : Char} : endsToken c = true ↔
    continuesWord c = false ∧ Text.isDecimalDigit c = false ∧ c ≠ '.' := by
  simp [endsToken, and_assoc]

theorem stops_of_endsToken {form : LexemeForm} (hform : form ≠ blank ∧ form ≠ comment) {c : Char}
    (hc : endsToken c = true) (text rest : List Char) : Stops form text (c :: rest) := by
  obtain ⟨hword, hdigit, hpoint⟩ := endsToken_iff.1 hc
  cases form with
  | blank => exact absurd rfl hform.1
  | comment => exact absurd rfl hform.2
  | word => exact stopsRun_cons.2 hword
  | number => exact ⟨stopsRun_cons.2 hdigit, .inr (by simp [startsFraction, hpoint])⟩
  | string => trivial
  | mark => trivial

/-- What stops a lexeme goes on doing so in front of a character that ends tokens. -/
theorem Stops.append {form : LexemeForm} {text before : List Char} (h : Stops form text before)
    (hne : before ≠ []) {c : Char} (hc : endsToken c = true) (rest : List Char) :
    Stops form text (before ++ c :: rest) := by
  obtain ⟨d, more, rfl⟩ := List.exists_cons_of_ne_nil hne
  have hrun {p : Char → Bool} (h : StopsRun p (d :: more)) : StopsRun p (d :: more ++ c :: rest) :=
    stopsRun_cons.2 (stopsRun_cons.1 h)
  cases form with
  | blank => exact hrun h
  | comment => exact hrun h
  | word => exact hrun h
  | number =>
    have hfraction : startsFraction (d :: more ++ c :: rest) = startsFraction (d :: more) := by
      apply startsFraction_append
      rintro _ ⟨⟩
      exact (endsToken_iff.1 hc).2
    refine ⟨hrun h.1, ?_⟩
    rw [hfraction]
    exact h.2
  | string => trivial
  | mark => trivial

/-! ## Numbers -/

/-- The text of an integer is a number by itself. -/
theorem lexeme?_integerText {digits : List Char} (hne : digits ≠ [])
    (hdigits : ∀ c ∈ digits, Decimal.isDigit c = true) (negative : Bool) :
    lexeme? (integerText negative digits) =
      some (number, (integerText negative digits).length) := by
  have hcount : digitCount digits = digits.length := by
    rw [digitCount, List.takeWhile_eq_self_iff.2 fun c hc ↦
      Decimal.isDecimalDigit_of_isDigit (hdigits c hc)]
  have hlength : unsignedLength? digits = some digits.length := by
    rw [unsignedLength?_eq, hcount, if_neg (List.length_pos_iff.2 hne).ne', List.drop_length]
    rfl
  refine lexeme?_iff_length?.2 (numberLength?_eq_some.2 ?_)
  cases negative with
  | true => exact .inr ⟨digits, _, rfl, hlength, rfl⟩
  | false => exact .inl hlength

theorem tokenKind?_integerText {digits : List Char} (hne : digits ≠ [])
    (hdigits : ∀ c ∈ digits, Decimal.isDigit c = true) (negative : Bool) :
    number.tokenKind? (integerText negative digits) = some .numberLiteral := by
  cases negative with
  | true => rfl
  | false =>
    obtain ⟨c, rest, rfl⟩ := List.exists_cons_of_ne_nil hne
    have hc : c.isDigit = true := hdigits c List.mem_cons_self
    rw [integerText, if_neg Bool.false_ne_true, tokenKind?, hc, Bool.or_true, if_pos rfl]

end LexemeForm

namespace TokenStream

/-! ## Text in front of other text -/

variable (p : Text.Position)

/-- A text in front of another one gives some tokens, and the other one is read as by itself. -/
def Gives (text rest : List Char) (tokens : List Token) : Prop :=
  ofText p (text ++ rest) = prepend tokens (ofText (p.after text) rest)

variable {p}

theorem Gives.append {text more rest : List Char} {tokens others : List Token}
    (h : Gives p text (more ++ rest) tokens) (h' : Gives (p.after text) more rest others) :
    Gives p (text ++ more) rest (tokens ++ others) := by
  rw [Gives, List.append_assoc, h, h', prepend_append, Text.Position.after_append]

theorem gives_nil (rest : List Char) : Gives p [] rest [] := rfl

theorem gives_blank {blanks : List Char} (h : BlankText blanks) (rest : List Char) :
    Gives p blanks rest [] := ofText_blank_append p h rest

theorem gives_space (rest : List Char) : Gives p [' '] rest [] :=
  gives_blank (.space (by decide) .nil) rest

theorem gives_lexeme {form : LexemeForm} {text rest : List Char} {kind : TokenKind}
    (h : LexemeForm.lexeme? text = some (form, text.length)) (hstops : form.Stops text rest)
    (hkind : form.tokenKind? text = some kind) :
    Gives p text rest [⟨kind, String.ofList text, p⟩] := by
  have hread := ofText_lexeme_append p ((LexemeForm.lexeme?_append _ _ _).2 ⟨h, hstops⟩)
  rw [Segment.token?, hkind] at hread
  exact hread

/-- A punctuation mark is a token in front of every text. -/
theorem gives_mark {c : Char} {kind : TokenKind} (h : TokenKind.ofMark? c = some kind)
    (rest : List Char) : Gives p [c] rest [⟨kind, String.ofList [c], p⟩] := by
  have hlexeme : LexemeForm.lexeme? [c] = some (.mark, [c].length) := by
    unfold TokenKind.ofMark? at h
    split at h
    all_goals first
      | cases h
        decide
      | cases h
  exact gives_lexeme hlexeme trivial h

theorem gives_integerText {digits : List Char} (hne : digits ≠ [])
    (hdigits : ∀ c ∈ digits, Decimal.isDigit c = true) (negative : Bool) {c : Char}
    (hc : LexemeForm.endsToken c = true) (rest : List Char) :
    Gives p (integerText negative digits) (c :: rest)
      [⟨.numberLiteral, String.ofList (integerText negative digits), p⟩] :=
  gives_lexeme (LexemeForm.lexeme?_integerText hne hdigits negative)
    (LexemeForm.stops_of_endsToken ⟨by decide, by decide⟩ hc _ rest)
    (LexemeForm.tokenKind?_integerText hne hdigits negative)

/-- Lexemes that end with a token give their tokens in front of a character that ends it. -/
theorem gives_segments {front : List Segment} (hcut : Segment.Cut front) {c : Char}
    (hc : LexemeForm.endsToken c = true) (rest : List Char)
    (hlast : ∀ form text, front.getLast? = some (.lexeme form text) →
      form ≠ .blank ∧ form ≠ .comment) :
    Gives p (Segment.concat front) (c :: rest) (Segment.tokens p front) := by
  induction hcut generalizing p with
  | nil => exact gives_nil _
  | @cons form text front hlexeme hstops hfront ih =>
    have hread : form.Stops text (Segment.concat front ++ c :: rest) := by
      by_cases hempty : front = []
      · subst hempty
        exact LexemeForm.stops_of_endsToken (hlast form text rfl) hc text rest
      · exact hstops.append (hfront.concat_ne_nil hempty) hc rest
    have hfirst : Gives p text (Segment.concat front ++ c :: rest)
        ((Segment.lexeme form text).token? p).toList :=
      ofText_lexeme_append p ((LexemeForm.lexeme?_append _ _ _).2 ⟨hlexeme, hread⟩)
    rw [Segment.concat_cons, Segment.tokens]
    refine hfirst.append (ih fun form text htext ↦ hlast form text ?_)
    rw [List.getLast?_cons, htext]
    rfl

end TokenStream

/-! ## Text between segments -/

/-- Between the start of a token and the end of its text there is some of the text. -/
theorem Segment.Cut.exists_text {segments : List Segment} (h : Cut segments) {p : Text.Position}
    {token : Token} (htoken : token ∈ tokens p segments) :
    ∃ text, text ≠ [] ∧ token.position.after text = p.after (concat segments) := by
  obtain ⟨before, behind, hsplit⟩ := List.append_of_mem htoken
  obtain ⟨front, segment, back, rfl, -, hsegment, -⟩ := exists_of_tokens_eq hsplit
  cases segment with
  | stray text => cases hsegment
  | lexeme form text =>
    obtain ⟨kind, -, rfl⟩ := Option.map_eq_some_iff.1 hsegment
    have hlexeme := h.lexeme_of_mem (List.mem_append_right front List.mem_cons_self)
    have hne : text ≠ [] := List.ne_nil_of_length_pos (LexemeForm.lexeme?_pos hlexeme)
    refine ⟨text ++ concat back, List.append_ne_nil_of_left_ne_nil hne _, ?_⟩
    rw [← Text.Position.after_append, concat_append, concat_cons, Segment.text]

/--
Text inserted behind a segment that is a token. It stays on the line, so that the tokens behind it
are moved, and those in front of it are not.
-/
theorem TokenStream.ofText_insert {front back : List Segment} (hcut : Segment.Cut (front ++ back))
    (hlast : ∀ form text, front.getLast? = some (.lexeme form text) →
      form ≠ .blank ∧ form ≠ .comment) {c : Char} {more : List Char} {added : List Token}
    (hc : LexemeForm.endsToken c = true) (hline : '\n' ∉ c :: more)
    (hadded : Gives (Text.Position.start.after (Segment.concat front)) (c :: more)
      (Segment.concat back) added) :
    ∃ (move : Text.Position → Text.Position) (stop : Text.Position),
      ofText .start (Segment.concat front ++ (c :: more ++ Segment.concat back)) =
        ⟨Segment.tokens .start front ++ (added ++
          (Segment.tokens (Text.Position.start.after (Segment.concat front)) back).map
            (·.moved move)) ++ [Segment.endToken stop], []⟩ ∧
      (Segment.tokens .start front).map (·.moved move) = Segment.tokens .start front := by
  obtain ⟨old, hold⟩ : ∃ old, Text.Position.start.after (Segment.concat front) = old := ⟨_, rfl⟩
  obtain ⟨new, hnew⟩ : ∃ new, old.after (c :: more) = new := ⟨_, rfl⟩
  rw [hold] at hadded ⊢
  have hmoved (text : List Char) :
      Text.Position.shifted old new (old.after text) = new.after text := by
    apply Text.Position.shifted_after
    rw [← hnew, Text.Position.after_of_notMem hline]
  refine ⟨Text.Position.shifted old new, new.after (Segment.concat back), ?_, ?_⟩
  · have hread := (gives_segments hcut.left hc (more ++ Segment.concat back) hlast).append
      (hold ▸ hadded)
    have hback : ofText new (Segment.concat back) = ⟨Segment.tokens new back ++
        [Segment.endToken (new.after (Segment.concat back))], []⟩ := by
      rw [ofText, hcut.right.ofText_concat, ofSegments_of_cut _ hcut.right]
    rw [Gives, Text.Position.after_append, hold, hnew, hback, List.append_assoc] at hread
    rw [hread, Segment.tokens_moved hmoved back, prepend]
    simp only [List.append_assoc]
  · refine (List.map_congr_left fun token htoken ↦ ?_).trans (List.map_id' _)
    obtain ⟨text, hne, hplace⟩ := hcut.left.exists_text htoken
    have hfixed := Text.Position.shifted_of_after hne (hplace.trans hold) new
    exact congrArg (fun position ↦ { token with position := position }) hfixed

end SchemaLang
