import SchemaLang.Proofs.Token.Boundary
import SchemaLang.Proofs.Token.Segments

/-!
# Blank text

White space and comments that end with their line give no tokens. In front of a text they only move
what it gives (`TokenStream.ofText_blank_append`). Behind lexemes they end the last one, so that
whatever follows is read as if it stood alone (`TokenStream.ofText_separated`). Only a comment at
the end takes what is left of its line with it.
-/

namespace SchemaLang

open Text (StopsRun stopsRun_cons stopsRun_nil)

/-- White space, and comments up to the ends of their lines. -/
inductive BlankText : List Char → Prop
  | nil : BlankText []
  | space {c : Char} {rest : List Char} (h : Text.isWhiteSpace c = true) (behind : BlankText rest) :
      BlankText (c :: rest)
  | comment {text rest : List Char} (h : '\n' ∉ text) (behind : BlankText rest) :
      BlankText ('/' :: '/' :: (text ++ '\n' :: rest))

namespace BlankText

theorem of_forall_isWhiteSpace {text : List Char} (h : ∀ c ∈ text, Text.isWhiteSpace c = true) :
    BlankText text := by
  induction text with
  | nil => exact .nil
  | cons c text ih =>
    rw [List.forall_mem_cons] at h
    exact .space h.1 (ih h.2)

theorem notMem_comment {text : List Char} (h : '\n' ∉ text) : '\n' ∉ '/' :: '/' :: text := by
  simp only [List.mem_cons, not_or]
  exact ⟨by decide, by decide, h⟩

/-- The line that blank text starts with, and the blank text from its end on. -/
theorem exists_line {text : List Char} (h : BlankText text) :
    ∃ line behind, text = line ++ behind ∧ '\n' ∉ line ∧ BlankText behind ∧
      StopsRun (· ≠ '\n') behind := by
  have hend (rest : List Char) : StopsRun (· ≠ '\n') ('\n' :: rest) := stopsRun_cons.2 rfl
  induction h with
  | nil => exact ⟨[], [], rfl, List.not_mem_nil, .nil, stopsRun_nil _⟩
  | @space c rest hc hrest ih =>
    by_cases hnew : c = '\n'
    · subst hnew
      exact ⟨[], '\n' :: rest, rfl, List.not_mem_nil, .space hc hrest, hend rest⟩
    · obtain ⟨line, behind, rfl, hline, hbehind, hstops⟩ := ih
      refine ⟨c :: line, behind, rfl, ?_, hbehind, hstops⟩
      rw [List.mem_cons, not_or]
      exact ⟨Ne.symm hnew, hline⟩
  | @comment text rest htext hrest _ =>
    exact ⟨'/' :: '/' :: text, '\n' :: rest, rfl, notMem_comment htext,
      .space (by decide) hrest, hend rest⟩

end BlankText

namespace LexemeForm

/-! ## What ends a lexeme -/

/-- A character that starts blank text. -/
def startsBlank (c : Char) : Bool := Text.isWhiteSpace c || c = '/'

theorem startsBlank_iff {c : Char} :
    startsBlank c = true ↔ Text.isWhiteSpace c = true ∨ c = '/' := by
  rw [startsBlank, Bool.or_eq_true, decide_eq_true_eq]

theorem startsBlank_of_blankText {c : Char} {rest : List Char} (h : BlankText (c :: rest)) :
    startsBlank c = true := by
  rw [startsBlank_iff]
  cases h with
  | space hc _ => exact .inl hc
  | comment _ _ => exact .inr rfl

theorem not_isDecimalDigit_of_startsBlank {c : Char} (h : startsBlank c = true) :
    Text.isDecimalDigit c = false := by
  rcases startsBlank_iff.1 h with hblank | rfl
  · exact not_isDecimalDigit_of_isWhiteSpace hblank
  · decide

theorem not_continuesWord_of_startsBlank {c : Char} (h : startsBlank c = true) :
    continuesWord c = false := by
  rcases startsBlank_iff.1 h with hblank | rfl
  · exact not_continuesWord_of_isWhiteSpace hblank
  · decide

/-- Whether a text starts with a fraction is seen from its first two characters. -/
theorem startsFraction_append {before : List Char} (behind : List Char)
    (hbehind : ∀ c ∈ behind.head?, Text.isDecimalDigit c = false ∧ c ≠ '.') :
    startsFraction (before ++ behind) = startsFraction before := by
  match before with
  | [] =>
    cases behind with
    | nil => rfl
    | cons c behind => simp [startsFraction, (hbehind c rfl).2]
  | [a] =>
    by_cases ha : a = '.'
    · cases behind with
      | nil => rw [List.append_nil]
      | cons c behind => simp [startsFraction, ha, (hbehind c rfl).1]
    · simp [startsFraction, ha]
  | a :: b :: before =>
    by_cases ha : a = '.'
    · rw [ha]
      rfl
    · simp [startsFraction, ha]

/--
What stops a lexeme stops it with blank text behind. Blank text itself stops every form but the two
that it is made of.
-/
theorem Stops.append_blank {form : LexemeForm} {text before : List Char}
    (h : Stops form text before) (hform : before ≠ [] ∨ (form ≠ blank ∧ form ≠ comment)) {c : Char}
    (hc : startsBlank c = true) (more : List Char) : Stops form text (before ++ c :: more) := by
  have hrun {p : Char → Bool} (hp : before ≠ [] ∨ p c = false) (h : StopsRun p before) :
      StopsRun p (before ++ c :: more) := by
    cases before with
    | nil => exact stopsRun_cons.2 (hp.resolve_left fun hne ↦ hne rfl)
    | cons d before => exact stopsRun_cons.2 (stopsRun_cons.1 h)
  cases form with
  | blank => exact hrun (.inl (hform.resolve_right fun hne ↦ hne.1 rfl)) h
  | comment => exact hrun (.inl (hform.resolve_right fun hne ↦ hne.2 rfl)) h
  | word => exact hrun (.inr (not_continuesWord_of_startsBlank hc)) h
  | number =>
    have hdigit := not_isDecimalDigit_of_startsBlank hc
    have hpoint : c ≠ '.' := by
      rintro rfl
      revert hc
      decide
    have hfraction : startsFraction (before ++ c :: more) = startsFraction before := by
      apply startsFraction_append
      rintro _ ⟨⟩
      exact ⟨hdigit, hpoint⟩
    refine ⟨hrun (.inr hdigit) h.1, ?_⟩
    rw [hfraction]
    exact h.2
  | string => trivial
  | mark => trivial

theorem startsFraction_of_append {before behind : List Char}
    (h : startsFraction (before ++ behind) = false) : startsFraction before = false := by
  match before with
  | [] => rfl
  | [a] => simp [startsFraction]
  | a :: b :: before =>
    by_cases ha : a = '.'
    · rw [ha] at h ⊢
      exact h
    · simp [startsFraction, ha]

/-- What stops a lexeme does so also where the text ends early. -/
theorem Stops.of_append {form : LexemeForm} {text before behind : List Char}
    (h : Stops form text (before ++ behind)) : Stops form text before := by
  have hrun {p : Char → Bool} (h : StopsRun p (before ++ behind)) : StopsRun p before := by
    cases before with
    | nil => exact stopsRun_nil p
    | cons c before => exact stopsRun_cons.2 (stopsRun_cons.1 h)
  cases form with
  | blank => exact hrun h
  | comment => exact hrun h
  | word => exact hrun h
  | number => exact ⟨hrun h.1, h.2.imp_right startsFraction_of_append⟩
  | string => trivial
  | mark => trivial

end LexemeForm

namespace Segment

theorem Cut.left {front back : List Segment} (h : Cut (front ++ back)) : Cut front := by
  induction front with
  | nil => exact .nil
  | cons segment front ih =>
    rw [List.cons_append] at h
    cases h with
    | cons hlexeme hstops hcut =>
      rw [concat_append] at hstops
      exact .cons hlexeme hstops.of_append (ih hcut)

theorem Cut.right {front back : List Segment} (h : Cut (front ++ back)) : Cut back := by
  induction front with
  | nil => exact h
  | cons segment front ih =>
    cases h with
    | cons _ _ hcut => exact ih hcut

theorem Cut.concat_ne_nil {segments : List Segment} (h : Cut segments) (hne : segments ≠ []) :
    concat segments ≠ [] := by
  cases h with
  | nil => exact absurd rfl hne
  | cons hlexeme _ _ =>
    obtain ⟨c, rest, rfl, -⟩ := LexemeForm.exists_cons_of_lexeme? hlexeme
    exact List.cons_ne_nil _ _

end Segment

namespace TokenStream

/-! ## The stream of a text -/

/-- The stream of a text that starts at a place, before words are told apart by their scopes. -/
def ofText (p : Text.Position) (text : List Char) : TokenStream :=
  ofSegments p (Segment.ofText text)

/-- A stream with tokens in front. -/
def prepend (tokens : List Token) (stream : TokenStream) : TokenStream :=
  { stream with tokens := tokens ++ stream.tokens }

theorem prepend_append (front back : List Token) (stream : TokenStream) :
    prepend (front ++ back) stream = prepend front (prepend back stream) :=
  congrArg (TokenStream.mk · stream.strays) (List.append_assoc front back stream.tokens)

variable (p : Text.Position)

/-- The stream of lexemes: their tokens, and the end of the input. -/
theorem ofSegments_of_cut {segments : List Segment} (h : Segment.Cut segments) :
    ofSegments p segments =
      ⟨Segment.tokens p segments ++ [Segment.endToken (p.after (Segment.concat segments))],
        []⟩ := by
  have htokens := Segment.ofSegments_tokens p segments
  have hstrays : (ofSegments p segments).strays = [] :=
    Segment.ofSegments_strays_eq_nil.2 h.stray_notMem
  rw [← htokens, ← hstrays]

/-- A lexeme in front gives its token. -/
theorem ofText_lexeme_append {form : LexemeForm} {text rest : List Char}
    (h : LexemeForm.lexeme? (text ++ rest) = some (form, text.length)) :
    ofText p (text ++ rest) =
      prepend ((Segment.lexeme form text).token? p).toList (ofText (p.after text) rest) := by
  rw [ofText, Segment.ofText_cons h, ofSegments, Segment.token?]
  cases form.tokenKind? text <;> rfl

/-- White space in front of what is not white space is passed over. -/
theorem ofText_run_append {run rest : List Char}
    (hrun : ∀ c ∈ run, Text.isWhiteSpace c = true) (hrest : StopsRun Text.isWhiteSpace rest) :
    ofText p (run ++ rest) = ofText (p.after run) rest := by
  by_cases hne : run = []
  · rw [hne, List.nil_append, Text.Position.after_nil]
  · have hblank := LexemeForm.lexeme?_blank_iff.2 ⟨hne, hrun⟩
    exact ofText_lexeme_append p ((LexemeForm.lexeme?_append _ _ _).2 ⟨hblank, hrest⟩)

theorem ofText_space {c : Char} (hc : Text.isWhiteSpace c = true) (rest : List Char) :
    ofText p (c :: rest) = ofText (p.next c) rest := by
  obtain ⟨run, behind, rfl, hall, hstops⟩ := Text.exists_run Text.isWhiteSpace rest
  have hwhole := ofText_run_append p (List.forall_mem_cons.2 ⟨hc, hall⟩) hstops
  have htail := ofText_run_append (p.next c) hall hstops
  rw [List.cons_append, Text.Position.after_cons] at hwhole
  rw [hwhole, htail]

theorem ofText_comment {text : List Char} (htext : '\n' ∉ text) {rest : List Char}
    (hrest : StopsRun (· ≠ '\n') rest) :
    ofText p ('/' :: '/' :: (text ++ rest)) = ofText (p.after ('/' :: '/' :: text)) rest := by
  have hcomment := LexemeForm.lexeme?_comment_iff.2 ⟨text, rfl, htext⟩
  exact ofText_lexeme_append p ((LexemeForm.lexeme?_append _ _ _).2 ⟨hcomment, hrest⟩)

/-- Blank text in front of a text moves what the text gives. -/
theorem ofText_blank_append {blanks : List Char} (h : BlankText blanks) (rest : List Char) :
    ofText p (blanks ++ rest) = ofText (p.after blanks) rest := by
  induction h generalizing p with
  | nil => rfl
  | @space c blanks hc _ ih =>
    rw [List.cons_append, ofText_space p hc, ih, Text.Position.after_cons]
  | @comment text blanks htext _ ih =>
    have hline : StopsRun (· ≠ '\n') ('\n' :: (blanks ++ rest)) := stopsRun_cons.2 rfl
    have hcomment := ofText_comment p htext hline
    have hafter : p.after ('/' :: '/' :: (text ++ '\n' :: blanks)) =
        ((p.after ('/' :: '/' :: text)).next '\n').after blanks :=
      Text.Position.after_append p ('/' :: '/' :: text) ('\n' :: blanks)
    rw [List.cons_append, List.cons_append, List.append_assoc, List.cons_append, hcomment,
      ofText_space _ (by decide), ih, hafter]

/-- A comment takes blank text behind it up to the end of the line. -/
theorem ofText_comment_blank_append {text : List Char}
    (htext : LexemeForm.lexeme? text = some (.comment, text.length)) {blanks : List Char}
    (hblanks : BlankText blanks) {rest : List Char}
    (hline : '\n' ∈ blanks ∨ StopsRun (· ≠ '\n') rest) :
    ofText p (text ++ (blanks ++ rest)) = ofText (p.after (text ++ blanks)) rest := by
  obtain ⟨body, rfl, hbody⟩ := LexemeForm.lexeme?_comment_iff.1 htext
  obtain ⟨before, behind, rfl, hbefore, hbehind, hstops⟩ := hblanks.exists_line
  have hnotMem : '\n' ∉ body ++ before := by
    rw [List.mem_append, not_or]
    exact ⟨hbody, hbefore⟩
  have hmore : StopsRun (· ≠ '\n') (behind ++ rest) := by
    cases behind with
    | nil =>
      apply hline.resolve_left
      rw [List.append_nil]
      exact hbefore
    | cons c behind => exact stopsRun_cons.2 (stopsRun_cons.1 hstops)
  calc
    ofText p ('/' :: '/' :: body ++ (before ++ behind ++ rest)) =
        ofText p ('/' :: '/' :: ((body ++ before) ++ (behind ++ rest))) := by
      simp only [List.cons_append, List.append_assoc]
    _ = ofText (p.after ('/' :: '/' :: (body ++ before))) (behind ++ rest) :=
      ofText_comment p hnotMem hmore
    _ = ofText ((p.after ('/' :: '/' :: (body ++ before))).after behind) rest :=
      ofText_blank_append _ hbehind rest
    _ = ofText (p.after ('/' :: '/' :: body ++ (before ++ behind))) rest := by
      rw [← Text.Position.after_append]
      simp only [List.cons_append, List.append_assoc]

/--
Lexemes that blank text ends give their tokens, and what stands behind is read as if it stood alone.
If the last lexeme is a comment, it must not reach into what stands behind.
-/
theorem ofText_separated {front : List Segment} (hcut : Segment.Cut front) {blanks : List Char}
    (hblanks : BlankText blanks) (hne : blanks ≠ []) {rest : List Char}
    (hline : ∀ text, front.getLast? = some (.lexeme .comment text) →
      '\n' ∈ blanks ∨ StopsRun (· ≠ '\n') rest) :
    ofText p (Segment.concat front ++ (blanks ++ rest)) =
      prepend (Segment.tokens p front)
        (ofText (p.after (Segment.concat front ++ blanks)) rest) := by
  obtain ⟨c, more, rfl⟩ := List.exists_cons_of_ne_nil hne
  have hc := LexemeForm.startsBlank_of_blankText hblanks
  induction hcut generalizing p with
  | nil => exact ofText_blank_append p hblanks rest
  | @cons form text front hlexeme hstops hfront ih =>
    have hnext (hform : Segment.concat front ≠ [] ∨ (form ≠ .blank ∧ form ≠ .comment))
        (hline : ∀ text, front.getLast? = some (.lexeme .comment text) →
          '\n' ∈ c :: more ∨ StopsRun (· ≠ '\n') rest) :
        ofText p (Segment.concat (.lexeme form text :: front) ++ (c :: more ++ rest)) =
          prepend (Segment.tokens p (.lexeme form text :: front))
            (ofText (p.after (Segment.concat (.lexeme form text :: front) ++ c :: more)) rest) := by
      have hlonger := hstops.append_blank hform hc (more ++ rest)
      have hread := (LexemeForm.lexeme?_append _ _ _).2 ⟨hlexeme, hlonger⟩
      have hfirst := ofText_lexeme_append p hread
      rw [← List.cons_append, ih _ hline] at hfirst
      rw [Segment.concat_cons, Segment.tokens, prepend_append, List.append_assoc,
        List.append_assoc, Text.Position.after_append]
      exact hfirst
    by_cases hlast : front = []
    · subst hlast
      rw [Segment.concat_cons, Segment.concat_nil, List.append_nil]
      cases form with
      | blank =>
        have hall := (LexemeForm.lexeme?_blank_iff.1 hlexeme).2
        have hfirst := ofText_blank_append p (.of_forall_isWhiteSpace hall) (c :: more ++ rest)
        rw [ofText_blank_append _ hblanks, ← Text.Position.after_append] at hfirst
        exact hfirst
      | comment => exact ofText_comment_blank_append p hlexeme hblanks (hline text rfl)
      | string | number | word | mark =>
        have hempty (body : List Char) : [].getLast? ≠ some (Segment.lexeme .comment body) := by
          simp
        have hlast := hnext (.inr ⟨by decide, by decide⟩) fun body hbody ↦
          absurd hbody (hempty body)
        rw [Segment.concat_cons, Segment.concat_nil, List.append_nil] at hlast
        exact hlast
    · apply hnext (.inl (hfront.concat_ne_nil hlast))
      intro body hbody
      apply hline body
      rw [List.getLast?_cons, hbody]
      rfl

end TokenStream

end SchemaLang
