import SchemaLang.Proofs.Source.Coverage
import SchemaLang.Proofs.Token.Longest

/-!
# How a source is cut

From left to right a source is cut into lexemes, each as long as a lexeme can be at its place, and
into runs of characters in which no lexeme starts, each of them up to the next lexeme or the end.
There is exactly one way to do so (`Segment.ofText_eq_iff`). Each run is reported once, and each
lexeme that is not silent gives one token, both in the order of the source (`ofSource_munch`).
-/

namespace SchemaLang

namespace LexemeForm

/-- Whether some lexeme starts where a text starts. -/
def StartsLexeme (text : List Char) : Prop :=
  ∃ form lexeme, IsLexeme form lexeme ∧ lexeme <+: text

theorem lexeme?_eq_none_iff_startsLexeme {text : List Char} :
    lexeme? text = none ↔ ¬StartsLexeme text := by
  rw [lexeme?_eq_none_iff, StartsLexeme]
  simp only [not_exists, not_and]

/-! ## Runs of stray characters -/

theorem strayLength_of_startsLexeme {text : List Char} (h : StartsLexeme text) :
    strayLength text = 0 := by
  cases text with
  | nil => rfl
  | cons c rest =>
    have hread : lexeme? (c :: rest) ≠ none := fun hnone ↦
      lexeme?_eq_none_iff_startsLexeme.1 hnone h
    rw [strayLength, if_pos (Option.isSome_iff_ne_none.2 hread)]

theorem strayLength_cons {c : Char} {rest : List Char} (h : ¬StartsLexeme (c :: rest)) :
    strayLength (c :: rest) = strayLength rest + 1 := by
  rw [strayLength, lexeme?_eq_none_iff_startsLexeme.2 h]
  exact if_neg Bool.false_ne_true

/-- The stray characters that a text starts with, and what stands behind them. -/
theorem exists_stray (text : List Char) :
    ∃ run rest, text = run ++ rest ∧ strayLength text = run.length ∧
      (∀ before more, run = before ++ more → more ≠ [] → ¬StartsLexeme (more ++ rest)) ∧
      (rest = [] ∨ StartsLexeme rest) := by
  induction text with
  | nil =>
    refine ⟨[], [], rfl, rfl, fun before more hsplit hne ↦ ?_, .inl rfl⟩
    exact absurd (List.append_eq_nil_iff.1 hsplit.symm).2 hne
  | cons c text ih =>
    by_cases hstarts : StartsLexeme (c :: text)
    · refine ⟨[], c :: text, rfl, strayLength_of_startsLexeme hstarts, ?_, .inr hstarts⟩
      exact fun before more hsplit hne ↦ absurd (List.append_eq_nil_iff.1 hsplit.symm).2 hne
    · obtain ⟨run, rest, rfl, hlength, hnone, hrest⟩ := ih
      refine ⟨c :: run, rest, rfl, ?_, ?_, hrest⟩
      · rw [strayLength_cons hstarts, hlength, List.length_cons]
      · intro before more hsplit hne
        cases before with
        | nil =>
          rw [List.nil_append] at hsplit
          rwa [← hsplit]
        | cons d before => exact hnone before more (List.cons.inj hsplit).2 hne

/-- Stray characters are counted up to the end of the text or to the next lexeme. -/
theorem strayLength_append {run rest : List Char}
    (hnone : ∀ before more, run = before ++ more → more ≠ [] → ¬StartsLexeme (more ++ rest))
    (hrest : rest = [] ∨ StartsLexeme rest) : strayLength (run ++ rest) = run.length := by
  induction run with
  | nil =>
    rcases hrest with rfl | hstarts
    · rfl
    · exact strayLength_of_startsLexeme hstarts
  | cons c run ih =>
    have hhere := hnone [] (c :: run) rfl (List.cons_ne_nil c run)
    have hlater := ih fun before more hsplit ↦ hnone (c :: before) more (congrArg (c :: ·) hsplit)
    rw [List.cons_append] at hhere ⊢
    rw [strayLength_cons hhere, hlater, List.length_cons]

end LexemeForm

namespace Segment

open LexemeForm (IsLexeme StartsLexeme)

/--
Segments of which each one is as long as it can be. A lexeme is followed by nothing that would make
a longer one, and no lexeme starts within a run of stray characters, which is not empty and not
followed by another run.
-/
inductive Munch : List Segment → Prop
  | nil : Munch []
  | lexeme {form : LexemeForm} {text : List Char} {rest : List Segment}
      (hlexeme : IsLexeme form text)
      (hlongest : ∀ other longer, IsLexeme other longer → longer <+: text ++ concat rest →
        longer.length ≤ text.length)
      (behind : Munch rest) : Munch (.lexeme form text :: rest)
  | stray {text : List Char} {rest : List Segment} (hne : text ≠ [])
      (hnone : ∀ before more, text = before ++ more → more ≠ [] →
        ¬StartsLexeme (more ++ concat rest))
      (hnext : ∀ other, rest.head? ≠ some (.stray other))
      (behind : Munch rest) : Munch (.stray text :: rest)

theorem ofText_stray {run rest : List Char} (hne : run ≠ [])
    (hread : LexemeForm.lexeme? (run ++ rest) = none)
    (hlength : LexemeForm.strayLength (run ++ rest) = run.length) :
    ofText (run ++ rest) = stray run :: ofText rest := by
  obtain ⟨c, more, hsplit⟩ :=
    List.exists_cons_of_ne_nil (List.append_ne_nil_of_left_ne_nil hne rest)
  have htake : (run ++ rest).take (LexemeForm.strayLength (run ++ rest)) = run := by
    rw [hlength, List.take_left]
  have hdrop : (run ++ rest).drop (LexemeForm.strayLength (run ++ rest)) = rest := by
    rw [hlength, List.drop_left]
  rw [hsplit] at hread htake hdrop ⊢
  rw [ofText]
  split
  case h_1 hsome =>
    rw [hread] at hsome
    cases hsome
  case h_2 => rw [htake, hdrop]

theorem Munch.startsLexeme {segments : List Segment} (h : Munch segments)
    (hhead : ∀ other, segments.head? ≠ some (.stray other)) :
    concat segments = [] ∨ StartsLexeme (concat segments) := by
  cases h with
  | nil => exact .inl rfl
  | lexeme hlexeme => exact .inr ⟨_, _, hlexeme, List.prefix_append _ _⟩
  | stray => exact absurd rfl (hhead _)

/-- Segments that are as long as they can be are what their text is cut into. -/
theorem Munch.ofText_concat {segments : List Segment} (h : Munch segments) :
    ofText (concat segments) = segments := by
  induction h with
  | nil => exact ofText.eq_1
  | @lexeme form text rest hlexeme hlongest _ ih =>
    have htake : (text ++ concat rest).take text.length = text := List.take_left
    have hread : LexemeForm.lexeme? (text ++ concat rest) = some (form, text.length) := by
      rw [LexemeForm.lexeme?_eq_some_iff, htake, List.length_append]
      exact ⟨Nat.le_add_right _ _, hlexeme, hlongest⟩
    exact (ofText_cons hread).trans (congrArg _ ih)
  | @stray text rest hne hnone hnext hrest ih =>
    have hread := LexemeForm.lexeme?_eq_none_iff_startsLexeme.2 (hnone [] text rfl hne)
    have hlength := LexemeForm.strayLength_append hnone (hrest.startsLexeme hnext)
    exact (ofText_stray hne hread hlength).trans (congrArg _ ih)

/-- A run of stray characters ends at a lexeme or with the source. -/
theorem head?_ofText_ne_stray {text : List Char} (h : text = [] ∨ StartsLexeme text)
    (other : List Char) : (ofText text).head? ≠ some (.stray other) := by
  cases text with
  | nil =>
    rw [ofText]
    exact (Option.some_ne_none _).symm
  | cons c rest =>
    have hstarts := h.resolve_left (List.cons_ne_nil c rest)
    rw [ofText]
    split
    case h_1 => simp
    case h_2 hread => exact absurd hstarts (LexemeForm.lexeme?_eq_none_iff_startsLexeme.1 hread)

/-- A text is cut into segments that are as long as they can be. -/
theorem munch_ofText (source : List Char) : Munch (ofText source) := by
  fun_induction ofText source with
  | case1 => exact .nil
  | case2 c rest form n hread _ ih =>
    obtain ⟨hle, hlexeme, hlongest⟩ := LexemeForm.lexeme?_eq_some_iff.1 hread
    refine .lexeme hlexeme ?_ ih
    rw [concat_ofText, List.take_append_drop, List.length_take_of_le hle]
    exact hlongest
  | case3 c rest hread hpos ih =>
    obtain ⟨run, behind, hsplit, hlength, hnone, hbehind⟩ := LexemeForm.exists_stray (c :: rest)
    rw [hlength] at hpos
    rw [hlength, hsplit, List.drop_left] at ih
    rw [hlength, hsplit, List.take_left, List.drop_left]
    refine .stray (List.length_pos_iff.1 hpos) ?_ (head?_ofText_ne_stray hbehind) ih
    rwa [concat_ofText]

/-- There is one way to cut a text into segments that are as long as they can be. -/
theorem ofText_eq_iff {source : List Char} {segments : List Segment} :
    ofText source = segments ↔ Munch segments ∧ concat segments = source := by
  constructor
  · rintro rfl
    exact ⟨munch_ofText source, concat_ofText source⟩
  · rintro ⟨hmunch, rfl⟩
    exact hmunch.ofText_concat

/-! ## What is reported -/

/-- Whether a segment is a run of stray characters. -/
def isStray : Segment → Bool
  | lexeme .. => false
  | stray _ => true

theorem texts_tokens_eq (p : Text.Position) (segments : List Segment) :
    (tokens p segments).map (·.text.toList) =
      (segments.filter fun segment ↦ !segment.isStray && !segment.silent).map text := by
  induction segments generalizing p with
  | nil => rfl
  | cons segment rest ih =>
    rw [tokens, List.map_append, ih, List.filter_cons]
    cases segment with
    | stray text => rfl
    | lexeme form text =>
      cases hkind : form.tokenKind? text <;>
        simp [token?, isStray, silent, hkind, Segment.text]

theorem texts_strays_eq (p : Text.Position) (segments : List Segment) :
    (TokenStream.ofSegments p segments).strays.map (·.text.toList) =
      (segments.filter isStray).map text := by
  induction segments generalizing p with
  | nil => rfl
  | cons segment rest ih =>
    cases segment with
    | stray text =>
      rw [List.filter_cons_of_pos rfl, List.map_cons, ← ih (p.after text)]
      exact congrArg (· :: _) String.toList_ofList
    | lexeme form text =>
      have hrest := ih (p.after text)
      rw [TokenStream.ofSegments]
      cases form.tokenKind? text <;> exact hrest

end Segment

/--
A source is cut from left to right into lexemes and runs of stray characters, and there is one way
to do so: each lexeme is the longest that starts at its place, and no lexeme starts within a run,
which is not empty and not followed by another run. The lexemes that are not silent are the tokens
of the source, with the end of the input behind them, and the runs are its errors, all in order.
-/
theorem ofSource_munch (source : String) :
    (∀ segments, Segment.ofText source.toList = segments ↔
      Segment.Munch segments ∧ Segment.concat segments = source.toList) ∧
    (TokenStream.ofSource source).tokens.map (·.text.toList) =
      ((Segment.ofText source.toList).filter fun segment ↦
        !segment.isStray && !segment.silent).map Segment.text ++ [[]] ∧
    (TokenStream.ofSource source).strays.map (·.text.toList) =
      ((Segment.ofText source.toList).filter Segment.isStray).map Segment.text := by
  refine ⟨fun segments ↦ Segment.ofText_eq_iff, ?_, Segment.texts_strays_eq _ _⟩
  rw [ofSource_tokens, List.map_append, relabel, map_relabelFrom fun _ _ ↦ rfl,
    Segment.texts_tokens_eq]
  rfl

end SchemaLang
