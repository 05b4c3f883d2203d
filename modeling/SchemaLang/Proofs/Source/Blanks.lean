import SchemaLang.Proofs.Source.Contents

/-!
# Blank text in a source

White space and whole comments can be inserted between any two segments of a source, and at its
ends. The tokens say the same afterwards, so the source has the same definitions or is refused for
the same reason at the same token (`compile_insert_blank`).
-/

namespace SchemaLang

/-! ## What tokens say wherever they start -/

/-- Scopes depend on kinds, so what tokens say in their scopes depends on what they say. -/
theorem relabelFrom_content {scope : Scope} {raw other : List Token}
    (h : other.map Token.content = raw.map Token.content) :
    (relabelFrom scope other).map Token.content = (relabelFrom scope raw).map Token.content := by
  induction raw generalizing scope other with
  | nil =>
    obtain rfl := List.map_eq_nil_iff.1 h
    rfl
  | cons token raw ih =>
    obtain ⟨counterpart, others, rfl, hsay, hothers⟩ := List.map_eq_cons_iff.1 h
    obtain ⟨hkind, htext⟩ := Prod.mk.inj hsay
    rw [relabelFrom, relabelFrom, hkind, List.map_cons, List.map_cons, ih hothers]
    exact congrArg (fun text ↦ ((scope.advance token.kind).2, text) :: _) htext

theorem Segment.content_tokens (p q : Text.Position) (segments : List Segment) :
    (tokens q segments).map Token.content = (tokens p segments).map Token.content := by
  induction segments generalizing p q with
  | nil => rfl
  | cons segment rest ih =>
    have hfirst : (segment.token? q).toList.map Token.content =
        (segment.token? p).toList.map Token.content := by
      cases segment with
      | stray text => rfl
      | lexeme form text =>
        rw [token?, token?]
        cases form.tokenKind? text <;> rfl
    rw [tokens, tokens, List.map_append, List.map_append, hfirst, ih]

/-! ## Blank text between segments -/

/-- Before a segment that stops it, a comment ends with its line. -/
theorem Segment.Cut.stopsRun_of_comment {front back : List Segment} (h : Cut (front ++ back))
    {text : List Char} (hlast : front.getLast? = some (.lexeme .comment text)) :
    Text.StopsRun (· ≠ '\n') (concat back) := by
  obtain ⟨others, rfl⟩ := List.getLast?_eq_some_iff.1 hlast
  rw [List.append_assoc, List.singleton_append] at h
  cases h.right with
  | cons _ hstops _ => exact hstops

namespace TokenStream

variable (p : Text.Position)

/-- Lexemes with blank text among them give their tokens, each one at its place. -/
theorem ofText_insert_blank {front back : List Segment} (hcut : Segment.Cut (front ++ back))
    {blanks : List Char} (hblanks : BlankText blanks) :
    ofText p (Segment.concat front ++ (blanks ++ Segment.concat back)) =
      prepend (Segment.tokens p front)
        (ofSegments (p.after (Segment.concat front ++ blanks)) back) := by
  by_cases hne : blanks = []
  · rw [hne, List.nil_append, List.append_nil, ← Segment.concat_append, ofText, hcut.ofText_concat,
      ofSegments_of_cut p hcut, ofSegments_of_cut _ hcut.right, prepend, Segment.tokens_append,
      Segment.concat_append, Text.Position.after_append, List.append_assoc]
  · have hline (text : List Char) (hlast : front.getLast? = some (.lexeme .comment text)) :
        '\n' ∈ blanks ∨ Text.StopsRun (· ≠ '\n') (Segment.concat back) :=
      .inr (hcut.stopsRun_of_comment hlast)
    rw [ofText_separated p hcut.left hblanks hne hline, ofText, hcut.right.ofText_concat]

end TokenStream

/-! ## Inserted blank text -/

/-- The tokens of a source with blank text inserted say what they said before. -/
theorem tokensOf_insert_blank {source : String} {input : List Token}
    (h : tokensOf source = .ok input) {front back : List Segment}
    (hsegments : Segment.ofText source.toList = front ++ back) {blanks : List Char}
    (hblanks : BlankText blanks) :
    ∃ output,
      tokensOf (String.ofList (Segment.concat front ++ (blanks ++ Segment.concat back))) =
        .ok output ∧
      output.map Token.content = input.map Token.content := by
  obtain ⟨segments, hcut, hsource, rfl⟩ := tokensOf_eq_ok_iff.1 h
  obtain rfl : segments = front ++ back := by
    rw [← hsegments, ← hsource, hcut.ofText_concat]
  let q := Text.Position.start.after (Segment.concat front ++ blanks)
  have hread := TokenStream.ofText_insert_blank .start hcut hblanks
  rw [TokenStream.ofSegments_of_cut q hcut.right, TokenStream.prepend] at hread
  have hback := Segment.content_tokens (Text.Position.start.after (Segment.concat front)) q back
  have hsay : (Segment.tokens .start front ++
      (Segment.tokens q back ++ [Segment.endToken (q.after (Segment.concat back))])).map
        Token.content =
      (Segment.tokens .start (front ++ back) ++
        [Segment.endToken (Text.Position.start.after source.toList)]).map Token.content := by
    simp only [Segment.tokens_append, List.map_append, List.append_assoc, hback]
    rfl
  refine ⟨_, tokensOf_of_ofText ((congrArg _ String.toList_ofList).trans hread), ?_⟩
  have hscopes := relabelFrom_append_endToken .outside (Segment.tokens .start (front ++ back))
    (Text.Position.start.after source.toList)
  rw [relabel, relabel, ← hscopes]
  exact relabelFrom_content hsay

/--
White space and whole comments can stand between any two segments of a source without stray
characters, and at its ends. The tokens say the same in the same order, and the source has the same
definitions, or it is refused for the same reason at the token with the same number.
-/
theorem compile_insert_blank {source : String} {input : List Token}
    (h : tokensOf source = .ok input) {front back : List Segment}
    (hsegments : Segment.ofText source.toList = front ++ back) {blanks : List Char}
    (hblanks : BlankText blanks) :
    ∃ output,
      tokensOf (String.ofList (Segment.concat front ++ (blanks ++ Segment.concat back))) =
        .ok output ∧
      output.map Token.content = input.map Token.content ∧
      SameAnswer input output (compile source)
        (compile (String.ofList (Segment.concat front ++ (blanks ++ Segment.concat back)))) := by
  obtain ⟨output, houtput, hsame⟩ := tokensOf_insert_blank h hsegments hblanks
  have hanswer := definitionsOf_congr (terminated_of_tokensOf h) hsame
  refine ⟨output, houtput, hsame, ?_⟩
  rw [compile_eq, compile_eq, h, houtput]
  exact hanswer

/-- A comment behind a size in brackets: neither the number nor the bracket takes part of it. -/
theorem compile_insert_blank_behind_size :
    ∃ input output,
      tokensOf "schema A\x7bx B[2]\x7d" = .ok input ∧
      tokensOf "schema A\x7bx B[2// two\n]\x7d" = .ok output ∧
      output.map Token.content = input.map Token.content ∧
      SameAnswer input output (compile "schema A\x7bx B[2]\x7d")
        (compile "schema A\x7bx B[2// two\n]\x7d") ∧
      compile "schema A\x7bx B[2// two\n]\x7d" =
        .ok [.schema ⟨"A", [
          { name := "x", type := "B", isArray := true, arraySize := some 2 }]⟩] := by
  have hblanks : BlankText "// two\n".toList :=
    @BlankText.comment [' ', 't', 'w', 'o'] [] (by decide) .nil
  let front : List Segment := [.lexeme .word "schema".toList, .lexeme .blank [' '],
    .lexeme .word ['A'], .lexeme .mark ['{'], .lexeme .word ['x'], .lexeme .blank [' '],
    .lexeme .word ['B'], .lexeme .mark ['['], .lexeme .number ['2']]
  let back : List Segment := [.lexeme .mark [']'], .lexeme .mark ['}']]
  have hsegments : Segment.ofText "schema A\x7bx B[2]\x7d".toList = front ++ back := by
    decide +kernel
  have hinput : tokensOf "schema A\x7bx B[2]\x7d" =
      .ok (TokenStream.ofSource "schema A\x7bx B[2]\x7d").tokens := by
    decide +kernel
  obtain ⟨output, houtput, hsame, hanswer⟩ := compile_insert_blank hinput hsegments hblanks
  exact ⟨_, output, hinput, houtput, hsame, hanswer, by decide +kernel⟩

end SchemaLang
