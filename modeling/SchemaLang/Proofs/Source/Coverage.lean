import SchemaLang.Proofs.Source.Accepted
import SchemaLang.Proofs.Token.Boundary

/-!
# The characters that tokens account for

White space and comments give no tokens, and neither do numbers whose first digit is outside of the
Latin script (`Segment.silent_iff`). Every other character of a source belongs to exactly one token
or run of stray characters, and these belong to none (`ofSource_covers`).
-/

namespace SchemaLang

namespace Segment

/-- Whether a segment leaves no trace in the stream of its source. -/
def silent : Segment → Bool
  | lexeme form text => (form.tokenKind? text).isNone
  | stray _ => false

/-- White space and comments, which are meant to be passed over. -/
inductive Passed : Segment → Prop
  | blank {text : List Char} (h : ∀ c ∈ text, Text.isWhiteSpace c = true) :
      Passed (.lexeme .blank text)
  | comment {body : List Char} (h : '\n' ∉ body) : Passed (.lexeme .comment ('/' :: '/' :: body))

/-- A number that starts with a digit other than the ten Latin ones. -/
inductive ForeignNumber : Segment → Prop
  | intro {c : Char} {rest : List Char} (h : Text.isDecimalDigit c = true)
      (hforeign : c.isDigit = false) : ForeignNumber (.lexeme .number (c :: rest))

theorem lexeme?_of_mem_ofText {source text : List Char} {form : LexemeForm}
    (h : lexeme form text ∈ ofText source) :
    LexemeForm.lexeme? text = some (form, text.length) := by
  fun_induction ofText source with
  | case1 => exact absurd h List.not_mem_nil
  | case2 c rest read n hread _ ih =>
    rcases List.mem_cons.1 h with heq | hmem
    · cases heq
      exact (LexemeForm.lexeme?_take hread).1
    · exact ih hmem
  | case3 c rest _ _ ih =>
    rcases List.mem_cons.1 h with heq | hmem
    · cases heq
    · exact ih hmem

theorem lexeme_silent_iff {form : LexemeForm} {text : List Char}
    (h : LexemeForm.lexeme? text = some (form, text.length)) :
    (lexeme form text).silent = true ↔
      (lexeme form text).Passed ∨ (lexeme form text).ForeignNumber := by
  obtain ⟨c, rest, rfl, hform⟩ := LexemeForm.exists_cons_of_lexeme? h
  cases form with
  | blank => exact iff_of_true rfl (.inl (.blank (LexemeForm.lexeme?_blank_iff.1 h).2))
  | comment =>
    obtain ⟨body, heq, hbody⟩ := LexemeForm.lexeme?_comment_iff.1 h
    rw [heq]
    exact iff_of_true rfl (.inl (.comment hbody))
  | string => exact iff_of_false Bool.false_ne_true nofun
  | word => exact iff_of_false Bool.false_ne_true nofun
  | mark =>
    have hmark : (TokenKind.ofMark? c).isSome = true := LexemeForm.ofHead_eq_mark hform.symm
    have hsilent : (lexeme .mark (c :: rest)).silent = false := by
      rw [silent, LexemeForm.tokenKind?, Option.isNone_eq_false_iff]
      exact hmark
    rw [hsilent]
    exact iff_of_false Bool.false_ne_true nofun
  | number =>
    have hsilent : (lexeme .number (c :: rest)).silent = true ↔ c ≠ '-' ∧ c.isDigit = false := by
      rw [silent, LexemeForm.tokenKind?]
      by_cases hminus : c = '-'
      · simp [hminus]
      · cases c.isDigit <;> simp [hminus]
    rw [hsilent]
    constructor
    · rintro ⟨hminus, hforeign⟩
      have hdigit := (LexemeForm.head_of_number h).resolve_left hminus
      exact .inr (.intro hdigit hforeign)
    · rintro (hpassed | hnumber)
      · cases hpassed
      · cases hnumber with
        | intro hdigit hforeign =>
          refine ⟨?_, hforeign⟩
          rintro rfl
          exact absurd hdigit (by decide)

/-- What leaves no trace is white space, a comment or a number with a foreign first digit. -/
theorem silent_iff {source : List Char} {segment : Segment} (h : segment ∈ ofText source) :
    segment.silent = true ↔ segment.Passed ∨ segment.ForeignNumber := by
  cases segment with
  | stray text => exact iff_of_false Bool.false_ne_true nofun
  | lexeme form text => exact lexeme_silent_iff (lexeme?_of_mem_ofText h)

/-- Every character of segments is in one of them. -/
theorem exists_of_lt_length {segments : List Segment} {i : Nat}
    (h : i < (concat segments).length) :
    ∃ front segment back, segments = front ++ segment :: back ∧ (concat front).length ≤ i ∧
      i < (concat front).length + segment.text.length := by
  induction segments generalizing i with
  | nil => exact absurd h (Nat.not_lt_zero i)
  | cons first rest ih =>
    rw [concat_cons, List.length_append] at h
    by_cases hi : i < first.text.length
    · exact ⟨[], first, rest, rfl, Nat.zero_le i, by simpa using hi⟩
    · obtain ⟨front, segment, back, rfl, hle, hlt⟩ := ih (i := i - first.text.length) (by omega)
      refine ⟨first :: front, segment, back, rfl, ?_, ?_⟩
      · rw [concat_cons, List.length_append]
        omega
      · rw [concat_cons, List.length_append]
        omega

end Segment

namespace TokenStream

/-- Whether the character with a number is in a text that starts at a place of a source. -/
def spans (source : List Char) (i : Nat) (p : Text.Position) (text : String) : Bool :=
  (List.range (i + 1)).any fun j ↦
    decide (Text.Position.start.after (source.take j) = p) && decide (i < j + text.length)

/-- In how many tokens and runs of stray characters the character with a number is. -/
def spanCount (stream : TokenStream) (source : List Char) (i : Nat) : Nat :=
  stream.tokens.countP (fun token ↦ spans source i token.position token.text) +
    stream.strays.countP (fun run ↦ spans source i run.position run.text)

variable {source : List Char} {i k : Nat}

theorem spans_iff (hi : i < source.length) (hk : k ≤ source.length) (text : String) :
    spans source i (Text.Position.start.after (source.take k)) text = true ↔
      k ≤ i ∧ i < k + text.length := by
  simp only [spans, List.any_eq_true, List.mem_range, Nat.lt_succ_iff, Bool.and_eq_true,
    decide_eq_true_eq]
  constructor
  · rintro ⟨j, hj, hplace, hlt⟩
    have hlength : j ≤ source.length := Nat.le_of_lt (Nat.lt_of_le_of_lt hj hi)
    obtain rfl := Text.Position.eq_of_after_take hlength hk hplace
    exact ⟨hj, hlt⟩
  · rintro ⟨hle, hlt⟩
    exact ⟨k, hle, rfl, hlt⟩

/-- The part of a count that one segment makes up. -/
theorem spanCount_cons (hi : i < source.length) (hk : k ≤ source.length) (segment : Segment)
    (rest : List Segment) :
    spanCount (ofSegments (Text.Position.start.after (source.take k)) (segment :: rest)) source i =
      (if segment.silent = false ∧ k ≤ i ∧ i < k + segment.text.length then 1 else 0) +
        spanCount (ofSegments ((Text.Position.start.after (source.take k)).after segment.text) rest)
          source i := by
  have hspans := spans_iff hi hk (String.ofList segment.text)
  rw [String.length_ofList] at hspans
  cases segment with
  | stray text =>
    simp only [ofSegments, spanCount, List.countP_cons, Segment.silent, Segment.text] at hspans ⊢
    simp only [hspans, true_and]
    omega
  | lexeme form text =>
    rw [ofSegments, Segment.silent]
    cases form.tokenKind? text with
    | none => simp [Segment.text]
    | some kind =>
      simp only [spanCount, List.countP_cons, Segment.text, Option.isNone_some, true_and]
        at hspans ⊢
      simp only [hspans]
      omega

/-- Where a segment that starts somewhere ends. -/
theorem after_take_segment (hk : k ≤ source.length) {segment : Segment} {rest : List Segment}
    (h : source.drop k = Segment.concat (segment :: rest)) :
    k + segment.text.length ≤ source.length ∧
      (Text.Position.start.after (source.take k)).after segment.text =
        Text.Position.start.after (source.take (k + segment.text.length)) ∧
      source.drop (k + segment.text.length) = Segment.concat rest := by
  rw [Segment.concat_cons] at h
  refine ⟨?_, ?_, ?_⟩
  · have hlength := congrArg List.length h
    rw [List.length_drop, List.length_append] at hlength
    omega
  · rw [List.take_add, h, List.take_left, Text.Position.after_append]
  · rw [← List.drop_drop, h, List.drop_left]

/-- Segments have nothing of what stands before them. -/
theorem spanCount_eq_zero (hi : i < source.length) {segments : List Segment}
    (h : source.drop k = Segment.concat segments) (hk : k ≤ source.length) (hlt : i < k) :
    spanCount (ofSegments (Text.Position.start.after (source.take k)) segments) source i = 0 := by
  induction segments generalizing k with
  | nil =>
    have hspans := spans_iff hi hk ""
    have hnone : spans source i (Text.Position.start.after (source.take k)) "" = false := by
      rw [← Bool.not_eq_true, hspans]
      omega
    simp [ofSegments, spanCount, hnone]
  | cons segment rest ih =>
    obtain ⟨hlength, hplace, hrest⟩ := after_take_segment hk h
    rw [spanCount_cons hi hk, hplace, ih hrest hlength (by omega), if_neg (by omega)]

/-- A character of a segment is in one token or stray run, or in none if the segment is silent. -/
theorem spanCount_ofSegments (hi : i < source.length) {front back : List Segment}
    {segment : Segment} (h : source.drop k = Segment.concat (front ++ segment :: back))
    (hk : k ≤ source.length) (hle : k + (Segment.concat front).length ≤ i)
    (hlt : i < k + (Segment.concat front).length + segment.text.length) :
    spanCount (ofSegments (Text.Position.start.after (source.take k)) (front ++ segment :: back))
      source i = if segment.silent then 0 else 1 := by
  induction front generalizing k with
  | nil =>
    obtain ⟨hlength, hplace, hrest⟩ := after_take_segment hk h
    rw [Segment.concat_nil, List.length_nil, Nat.add_zero] at hle hlt
    rw [List.nil_append, spanCount_cons hi hk, hplace, spanCount_eq_zero hi hrest hlength hlt]
    cases segment.silent <;> simp [hle, hlt]
  | cons first front ih =>
    obtain ⟨hlength, hplace, hrest⟩ := after_take_segment hk h
    rw [Segment.concat_cons, List.length_append] at hle hlt
    have hbehind := ih hrest hlength (by omega) (by omega)
    rw [List.cons_append, spanCount_cons hi hk, hplace, hbehind, if_neg (by omega), Nat.zero_add]

theorem countP_relabelFrom {p : Token → Bool} (h : ∀ token kind, p { token with kind } = p token)
    (scope : Scope) (tokens : List Token) :
    (relabelFrom scope tokens).countP p = tokens.countP p := by
  have hmap := congrArg (List.countP id) (map_relabelFrom h scope tokens)
  rwa [List.countP_map, List.countP_map, Function.id_comp] at hmap

end TokenStream

/-! ## Accepted sources -/

theorem texts_relabelFrom (scope : Scope) (tokens : List Token) :
    (relabelFrom scope tokens).flatMap (·.text.toList) = tokens.flatMap (·.text.toList) := by
  rw [List.flatMap_def, List.flatMap_def, map_relabelFrom fun _ _ ↦ rfl]

/-- The texts of tokens are those of the segments that are not silent. -/
theorem Segment.Cut.texts_tokens {segments : List Segment} (h : Cut segments) (p : Text.Position) :
    (tokens p segments).flatMap (·.text.toList) = concat (segments.filter (!·.silent)) := by
  induction h generalizing p with
  | nil => rfl
  | @cons form text rest _ _ _ ih =>
    rw [tokens, List.flatMap_append, ih, token?, List.filter_cons]
    cases hkind : form.tokenKind? text <;> simp [silent, hkind, Segment.text]

/--
The segments of a source leave a trace unless they are white space, comments or numbers with a
foreign first digit. Every character of a source is in exactly one token or run of stray characters
if its segment leaves a trace, and in none otherwise. The texts of the tokens of a source without
stray characters are those of the segments that leave a trace, in order.
-/
theorem ofSource_covers (source : String) :
    (∀ segment ∈ Segment.ofText source.toList,
      segment.silent = true ↔ segment.Passed ∨ segment.ForeignNumber) ∧
    (∀ i, i < source.toList.length → ∃ front segment back,
      Segment.ofText source.toList = front ++ segment :: back ∧
      (Segment.concat front).length ≤ i ∧
      i < (Segment.concat front).length + segment.text.length ∧
      (TokenStream.ofSource source).spanCount source.toList i = if segment.silent then 0 else 1) ∧
    (∀ tokens, tokensOf source = .ok tokens →
      tokens.flatMap (·.text.toList) =
        Segment.concat ((Segment.ofText source.toList).filter (!·.silent))) := by
  have hconcat := Segment.concat_ofText source.toList
  refine ⟨fun segment hmem ↦ Segment.silent_iff hmem, fun i hi ↦ ?_, fun tokens htokens ↦ ?_⟩
  · rw [← hconcat] at hi
    obtain ⟨front, segment, back, hsplit, hle, hlt⟩ := Segment.exists_of_lt_length hi
    rw [hconcat] at hi
    have hcount := TokenStream.spanCount_ofSegments (k := 0) hi
      (by rw [← hsplit, hconcat, List.drop_zero]) (Nat.zero_le _) (by omega) (by omega)
    refine ⟨front, segment, back, hsplit, hle, hlt, ?_⟩
    rw [List.take_zero, Text.Position.after_nil, ← hsplit] at hcount
    rw [← hcount, TokenStream.ofSource, TokenStream.spanCount, TokenStream.spanCount]
    dsimp only
    rw [relabel, TokenStream.countP_relabelFrom fun _ _ ↦ rfl]
  · obtain ⟨segments, hcut, hsource, rfl⟩ := tokensOf_eq_ok_iff.1 htokens
    rw [← hsource, hcut.ofText_concat, List.flatMap_append, relabel, texts_relabelFrom,
      hcut.texts_tokens]
    exact List.append_nil _

/-- A word in front of a digit of another script: the source is accepted, and the digit is lost. -/
theorem ofSource_covers_word :
    tokensOf "x\u0663" = .ok [⟨.identifier, "x", ⟨1, 1⟩⟩, Segment.endToken ⟨1, 3⟩] ∧
    "x".toList = Segment.concat ((Segment.ofText "x\u0663".toList).filter (!·.silent)) := by
  have htokens : tokensOf "x\u0663" =
      .ok [⟨.identifier, "x", ⟨1, 1⟩⟩, Segment.endToken ⟨1, 3⟩] := by
    decide +kernel
  exact ⟨htokens, (ofSource_covers "x\u0663").2.2 _ htokens⟩

/-- A digit of another script by itself is in no token and in no run of stray characters. -/
theorem ofSource_covers_not_foreign_digit :
    Segment.ofText "\u0663".toList = [.lexeme .number ['\u0663']] ∧
    ¬(Segment.lexeme .number ['\u0663']).Passed ∧ Text.isWhiteSpace '\u0663' = false ∧
    (TokenStream.ofSource "\u0663").spanCount "\u0663".toList 0 = 0 ∧
    TokenStream.ofSource "\u0663" = ⟨[Segment.endToken ⟨1, 2⟩], []⟩ :=
  ⟨by decide +kernel, nofun, by decide +kernel, by decide +kernel, by decide +kernel⟩

end SchemaLang
