import SchemaLang.Proofs.Text.Position
import SchemaLang.Proofs.Token.Boundary
import SchemaLang.Proofs.Tree.Phrase
import SchemaLang.Token.Stream

/-!
# Segments and their tokens

A source without stray characters is cut into lexemes of which each one is stopped by what follows
(`Cut`), and every such sequence is what its own text is cut into. So a lexeme can be exchanged for
another one wherever its neighbours are still stopped; for a word any other word will do
(`Cut.replace_word`). The tokens of a source are read off its segments one by one.
-/

namespace SchemaLang

namespace Segment

/-- Lexemes of which each one ends where the next one starts. -/
inductive Cut : List Segment → Prop
  | nil : Cut []
  | cons {form : LexemeForm} {text : List Char} {rest : List Segment}
      (lexeme : LexemeForm.lexeme? text = some (form, text.length))
      (stops : form.Stops text (concat rest)) (cut : Cut rest) : Cut (.lexeme form text :: rest)

theorem ofText_cons {form : LexemeForm} {text rest : List Char}
    (h : LexemeForm.lexeme? (text ++ rest) = some (form, text.length)) :
    ofText (text ++ rest) = lexeme form text :: ofText rest := by
  obtain ⟨c, cs, hcs, -⟩ := LexemeForm.exists_cons_of_lexeme? h
  have htake : (c :: cs).take text.length = text := by
    rw [← hcs, List.take_left]
  have hdrop : (c :: cs).drop text.length = rest := by
    rw [← hcs, List.drop_left]
  rw [hcs] at h ⊢
  rw [ofText]
  split
  · next form' n hlexeme =>
    rw [h, Option.some.injEq, Prod.mk.injEq] at hlexeme
    obtain ⟨rfl, rfl⟩ := hlexeme
    rw [htake, hdrop]
  · next hnone =>
    rw [h] at hnone
    cases hnone

/-- Lexemes that stop each other are what their text is cut into. -/
theorem Cut.ofText_concat {segments : List Segment} (h : Cut segments) :
    ofText (concat segments) = segments := by
  induction h with
  | nil => exact ofText.eq_1
  | cons hlexeme hstops _ ih =>
    have hfront := (LexemeForm.lexeme?_append _ _ _).2 ⟨hlexeme, hstops⟩
    exact (ofText_cons hfront).trans (congrArg _ ih)

/-- A text in which no characters are stray is cut into lexemes that stop each other. -/
theorem cut_ofText {source : List Char} (h : ∀ text, stray text ∉ ofText source) :
    Cut (ofText source) := by
  fun_induction ofText source with
  | case1 => exact .nil
  | case2 c rest form n hlexeme _ ih =>
    obtain ⟨hfront, hstops⟩ := LexemeForm.lexeme?_take hlexeme
    refine .cons hfront ?_ (ih fun text htext ↦ h text (List.mem_cons_of_mem _ htext))
    rw [concat_ofText]
    exact hstops
  | case3 c rest => exact absurd List.mem_cons_self (h _)

theorem Cut.lexeme_of_mem {segments : List Segment} (h : Cut segments) {form : LexemeForm}
    {text : List Char} (hmem : lexeme form text ∈ segments) :
    LexemeForm.lexeme? text = some (form, text.length) := by
  induction h with
  | nil => exact absurd hmem List.not_mem_nil
  | cons hlexeme _ _ ih =>
    rcases List.mem_cons.1 hmem with heq | hmem
    · cases heq
      exact hlexeme
    · exact ih hmem

theorem Cut.stray_notMem {segments : List Segment} (h : Cut segments) (text : List Char) :
    stray text ∉ segments := by
  induction h with
  | nil => exact List.not_mem_nil
  | cons _ _ _ ih =>
    intro hmem
    rcases List.mem_cons.1 hmem with heq | hmem
    · cases heq
    · exact ih hmem

/-- Any word may stand where a word stands. -/
theorem Cut.replace_word {before behind : List Segment} {old new : List Char}
    (h : Cut (before ++ lexeme .word old :: behind))
    (hnew : LexemeForm.lexeme? new = some (.word, new.length)) :
    Cut (before ++ lexeme .word new :: behind) := by
  have hold := h.lexeme_of_mem (List.mem_append_right before List.mem_cons_self)
  induction before with
  | nil =>
    cases h with
    | cons _ hstops hbehind => exact .cons hnew hstops hbehind
  | cons segment before ih =>
    rw [List.cons_append] at h ⊢
    cases h with
    | cons hlexeme hstops hrest =>
      obtain ⟨c, cs, rfl, hc, -⟩ := LexemeForm.lexeme?_word_iff.1 hold
      obtain ⟨d, ds, rfl, hd, -⟩ := LexemeForm.lexeme?_word_iff.1 hnew
      refine .cons hlexeme ?_ (ih hrest)
      rw [concat_append, concat_cons] at hstops ⊢
      exact (LexemeForm.stops_congr_word hc hd _ _ _ _ _).1 hstops

/-! ## The tokens of segments -/

/-- The token of a segment that starts at a place, if it gives one. -/
def token? (p : Text.Position) : Segment → Option Token
  | lexeme form text => (form.tokenKind? text).map (⟨·, String.ofList text, p⟩)
  | stray _ => none

/-- The tokens of segments of which the first one starts at a place. -/
def tokens (p : Text.Position) : List Segment → List Token
  | [] => []
  | segment :: rest => (segment.token? p).toList ++ tokens (p.after segment.text) rest

/-- The token behind everything else. -/
def endToken (p : Text.Position) : Token := ⟨.endOfInput, "", p⟩

theorem ofSegments_tokens (p : Text.Position) (segments : List Segment) :
    (TokenStream.ofSegments p segments).tokens =
      tokens p segments ++ [endToken (p.after (concat segments))] := by
  induction segments generalizing p with
  | nil => rfl
  | cons segment rest ih =>
    rw [concat_cons, Text.Position.after_append, tokens, List.append_assoc, ← ih]
    cases segment with
    | stray text => rfl
    | lexeme form text =>
      rw [TokenStream.ofSegments, token?, Segment.text]
      cases form.tokenKind? text <;> rfl

theorem ofSegments_strays_eq_nil {p : Text.Position} {segments : List Segment} :
    (TokenStream.ofSegments p segments).strays = [] ↔ ∀ text, stray text ∉ segments := by
  induction segments generalizing p with
  | nil => simp [TokenStream.ofSegments]
  | cons segment rest ih =>
    cases segment with
    | stray text =>
      refine iff_of_false (List.cons_ne_nil _ _) fun h ↦ h text List.mem_cons_self
    | lexeme form text =>
      rw [TokenStream.ofSegments]
      cases form.tokenKind? text <;> simp [ih]

theorem tokens_append (p : Text.Position) (front back : List Segment) :
    tokens p (front ++ back) = tokens p front ++ tokens (p.after (concat front)) back := by
  induction front generalizing p with
  | nil => rfl
  | cons segment front ih =>
    rw [List.cons_append, tokens, tokens, ih, concat_cons, Text.Position.after_append,
      List.append_assoc]

/-- A token among those of segments is that of one of them, with the others before and behind. -/
theorem exists_of_tokens_eq {p : Text.Position} {segments : List Segment}
    {before behind : List Token} {token : Token}
    (h : tokens p segments = before ++ token :: behind) :
    ∃ front segment back, segments = front ++ segment :: back ∧ tokens p front = before ∧
      segment.token? (p.after (concat front)) = some token ∧
      tokens ((p.after (concat front)).after segment.text) back = behind := by
  induction segments generalizing p before with
  | nil => cases before <;> cases h
  | cons segment rest ih =>
    rw [tokens] at h
    have hbehind {before : List Token}
        (h : tokens (p.after segment.text) rest = before ++ token :: behind) :
        ∃ front found back, segment :: rest = (segment :: front) ++ found :: back ∧
          tokens (p.after segment.text) front = before ∧
          found.token? (p.after (concat (segment :: front))) = some token ∧
          tokens ((p.after (concat (segment :: front))).after found.text) back = behind := by
      obtain ⟨front, found, back, hrest, hfront, hfound, hback⟩ := ih h
      have hplace : (p.after segment.text).after (concat front) =
          p.after (concat (segment :: front)) := by
        rw [concat_cons, Text.Position.after_append]
      rw [hplace] at hfound hback
      exact ⟨front, found, back, congrArg _ hrest, hfront, hfound, hback⟩
    cases hsegment : segment.token? p with
    | none =>
      rw [hsegment, Option.toList_none, List.nil_append] at h
      obtain ⟨front, found, back, hrest, hfront, hfound⟩ := hbehind h
      refine ⟨segment :: front, found, back, hrest, ?_, hfound⟩
      rw [tokens, hsegment, Option.toList_none, List.nil_append, hfront]
    | some first =>
      rw [hsegment, Option.toList_some, List.singleton_append] at h
      cases before with
      | nil =>
        obtain ⟨rfl, hrest⟩ := List.cons.inj h
        exact ⟨[], segment, rest, rfl, rfl, hsegment, hrest⟩
      | cons other before =>
        obtain ⟨rfl, hrest⟩ := List.cons.inj h
        obtain ⟨front, found, back, hrest, hfront, hfound⟩ := hbehind hrest
        refine ⟨segment :: front, found, back, hrest, ?_, hfound⟩
        rw [tokens, hsegment, Option.toList_some, List.singleton_append, hfront]

theorem kind_of_tokenKind? {form : LexemeForm} {text : List Char} {kind : TokenKind}
    (h : form.tokenKind? text = some kind) : kind ≠ .endOfInput := by
  unfold LexemeForm.tokenKind? at h
  split at h
  case h_4 =>
    simp only [Option.some.injEq] at h
    unfold TokenKind.ofWord? at h
    rintro rfl
    split_ifs at h
    all_goals cases h
  case h_5 c text =>
    unfold TokenKind.ofMark? at h
    rintro rfl
    split at h
    all_goals cases h
  case h_7 c text =>
    rintro rfl
    split_ifs at h
    cases h
  all_goals
    rintro rfl
    cases h

/-- No segment gives the end of the input. -/
theorem kind_of_mem_tokens {p : Text.Position} {segments : List Segment} {token : Token}
    (h : token ∈ tokens p segments) : token.kind ≠ .endOfInput := by
  obtain ⟨before, behind, hsplit⟩ := List.append_of_mem h
  obtain ⟨front, segment, back, rfl, -, hsegment, -⟩ := exists_of_tokens_eq hsplit
  cases segment with
  | stray text => cases hsegment
  | lexeme form text =>
    obtain ⟨kind, hkind, rfl⟩ := Option.map_eq_some_iff.1 hsegment
    exact kind_of_tokenKind? hkind

theorem tokens_position {p : Text.Position} {segments : List Segment} {token : Token}
    (h : token ∈ tokens p segments) :
    ∃ before behind, concat segments = before ++ behind ∧ token.position = p.after before := by
  obtain ⟨before, behind, hsplit⟩ := List.append_of_mem h
  obtain ⟨front, segment, back, rfl, -, hsegment, -⟩ := exists_of_tokens_eq hsplit
  refine ⟨concat front, concat (segment :: back), concat_append .., ?_⟩
  cases segment with
  | stray text => cases hsegment
  | lexeme form text =>
    obtain ⟨kind, -, rfl⟩ := Option.map_eq_some_iff.1 hsegment
    rfl

/-- Segments that start at another place give the same tokens, moved. -/
theorem tokens_moved {p q : Text.Position} {move : Text.Position → Text.Position}
    (h : ∀ text, move (p.after text) = q.after text) (segments : List Segment) :
    tokens q segments = (tokens p segments).map (·.moved move) := by
  induction segments generalizing p q with
  | nil => rfl
  | cons segment rest ih =>
    have htoken : segment.token? q = (segment.token? p).map (·.moved move) := by
      cases segment with
      | stray text => rfl
      | lexeme form text =>
        have hplace : move p = q := h []
        rw [token?, token?, Option.map_map, ← hplace]
        rfl
    have hrest := ih (p := p.after segment.text) (q := q.after segment.text) fun text ↦ by
      rw [← Text.Position.after_append, ← Text.Position.after_append, h]
    rw [tokens, tokens, List.map_append, hrest, htoken, Option.toList_map]

end Segment

end SchemaLang
