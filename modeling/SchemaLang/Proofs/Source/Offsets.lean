import Mathlib.Data.List.Pairwise
import SchemaLang.Proofs.Source.Places

/-!
# How far into a source a token stands

A position of a source tells how many characters stand before it (`Position.offset`), and its line
and its column can be counted in these characters (`StandsAt.standsBehind`). The segments that
a source is cut into stand one behind the other (`Segment.pairwise_placed`), and so do its tokens
and its runs of stray characters, up to the end of the input (`ofSource_positions`).
-/

namespace SchemaLang

namespace Text

/-- The number of characters of a source before a position. -/
def Position.offset (source : List Char) (p : Position) : Nat :=
  (unlines ((lines source).take (p.line - 1))).length + (p.column - 1)

theorem Position.offset_after (before behind : List Char) :
    (start.after before).offset (before ++ behind) = before.length := by
  obtain ⟨earlier, part, rest, later, rfl, hlines, hplace⟩ := exists_lines before behind
  rw [hplace, offset, hlines]
  simp only [Nat.add_sub_cancel]
  rw [List.take_left, List.length_append]

/--
A text stands in a source behind `n` characters. Its line is one more than the line feeds among
them, and its column one more than the characters behind the last of these.
-/
structure StandsBehind (source : List Char) (n : Nat) (p : Position) (text : List Char) :
    Prop where
  inside : n ≤ source.length
  line : p.line = 1 + (source.take n).count '\n'
  column : p.column = 1 + ((source.take n).reverse.takeWhile (· ≠ '\n')).length
  starts : text <+: source.drop n

theorem StandsAt.standsBehind {source text : List Char} {p : Position}
    (h : StandsAt source p text) : StandsBehind source (p.offset source) p text := by
  obtain ⟨before, behind, rfl, rfl, hstarts, -⟩ := h
  rw [Position.offset_after]
  refine ⟨?_, ?_, ?_, ?_⟩
  · rw [List.length_append]
    exact Nat.le_add_right _ _
  · rw [List.take_left]
    exact Position.line_after _ _
  · rw [List.take_left]
    exact Position.column_after _
  · rwa [List.drop_left]

/-- A stretch of a source: where it starts, and how many characters it has. -/
structure Span where
  position : Position
  length : Nat

namespace Span

/-- A stretch starts and ends before another one starts. -/
def EndsBefore (source : List Char) (a b : Span) : Prop :=
  a.position.offset source < b.position.offset source ∧
    a.position.offset source + a.length ≤ b.position.offset source

/-- One of two stretches ends before the other one starts. -/
def Apart (source : List Char) (a b : Span) : Prop :=
  a.EndsBefore source b ∨ b.EndsBefore source a

theorem Apart.symm {source : List Char} {a b : Span} (h : a.Apart source b) :
    b.Apart source a := Or.symm h

end Span

theorem Position.offset_start_after (source : List Char) :
    (start.after source).offset source = source.length := by
  have hwhole := offset_after source []
  rwa [List.append_nil] at hwhole

end Text

/-- The stretch of a source that a token is. -/
def Token.span (token : Token) : Text.Span := ⟨token.position, token.length⟩

/-- The stretch of a source that a run of stray characters is. -/
def StrayRun.span (run : StrayRun) : Text.Span := ⟨run.position, run.text.length⟩

/-! ## The order of segments -/

/-- A segment and its place. -/
structure PlacedSegment where
  position : Text.Position
  segment : Segment

namespace PlacedSegment

/-- The stretch of a source that a segment is. -/
def span (placed : PlacedSegment) : Text.Span := ⟨placed.position, placed.segment.text.length⟩

/-- The token of a segment at its place, if it gives one. -/
def token? (placed : PlacedSegment) : Option Token := placed.segment.token? placed.position

/-- The run of stray characters that a segment is at its place, if it is one. -/
def strayRun? : PlacedSegment → Option StrayRun
  | ⟨_, .lexeme ..⟩ => none
  | ⟨p, .stray text⟩ => some ⟨String.ofList text, p⟩

theorem span_of_token? {placed : PlacedSegment} {token : Token}
    (h : placed.token? = some token) : token.span = placed.span := by
  obtain ⟨p, segment⟩ := placed
  cases segment with
  | stray text => cases h
  | lexeme form text =>
    obtain ⟨kind, -, rfl⟩ := Option.map_eq_some_iff.1 h
    exact congrArg (Text.Span.mk p) String.length_ofList

theorem span_of_strayRun? {placed : PlacedSegment} {run : StrayRun}
    (h : placed.strayRun? = some run) : run.span = placed.span := by
  obtain ⟨p, segment⟩ := placed
  cases segment with
  | stray text =>
    cases h
    exact congrArg (Text.Span.mk p) String.length_ofList
  | lexeme form text => cases h

theorem strayRun?_of_token? {placed : PlacedSegment} {token : Token}
    (h : placed.token? = some token) : placed.strayRun? = none := by
  obtain ⟨p, segment⟩ := placed
  cases segment with
  | stray text => cases h
  | lexeme form text => rfl

end PlacedSegment

namespace Segment

open Text.Span (EndsBefore)

/-- Segments with their places, of which the first one starts at a place. -/
def placed (p : Text.Position) : List Segment → List PlacedSegment
  | [] => []
  | segment :: rest => ⟨p, segment⟩ :: placed (p.after segment.text) rest

theorem tokens_eq_filterMap (p : Text.Position) (segments : List Segment) :
    tokens p segments = (placed p segments).filterMap PlacedSegment.token? := by
  induction segments generalizing p with
  | nil => rfl
  | cons segment rest ih =>
    rw [tokens, placed, List.filterMap_cons, ih, PlacedSegment.token?]
    cases segment.token? p <;> rfl

theorem strays_eq_filterMap (p : Text.Position) (segments : List Segment) :
    (TokenStream.ofSegments p segments).strays =
      (placed p segments).filterMap PlacedSegment.strayRun? := by
  induction segments generalizing p with
  | nil => rfl
  | cons segment rest ih =>
    rw [placed, List.filterMap_cons, ← ih]
    cases segment with
    | stray text => rfl
    | lexeme form text =>
      rw [TokenStream.ofSegments]
      cases form.tokenKind? text <;> rfl

theorem exists_of_mem_placed {p : Text.Position} {segments : List Segment} {other : PlacedSegment}
    (h : other ∈ placed p segments) :
    ∃ front back, segments = front ++ other.segment :: back ∧
      other.position = p.after (concat front) := by
  induction segments generalizing p with
  | nil => exact absurd h List.not_mem_nil
  | cons segment rest ih =>
    rcases List.mem_cons.1 h with rfl | hmem
    · exact ⟨[], rest, rfl, rfl⟩
    · obtain ⟨front, back, hrest, hplace⟩ := ih hmem
      refine ⟨segment :: front, back, ?_, ?_⟩
      · rw [List.cons_append, ← hrest]
      · rw [hplace, concat_cons, Text.Position.after_append]

/-- Segments that are not empty stand one behind the other. -/
theorem pairwise_placed (before : List Char) {segments : List Segment}
    (hne : ∀ segment ∈ segments, segment.text ≠ []) :
    (placed (Text.Position.start.after before) segments).Pairwise fun one other ↦
      EndsBefore (before ++ concat segments) one.span other.span := by
  induction segments generalizing before with
  | nil => exact List.Pairwise.nil
  | cons segment rest ih =>
    obtain ⟨hfirst, hrest⟩ := List.forall_mem_cons.1 hne
    have hlater := ih (before ++ segment.text) hrest
    rw [Text.Position.after_append, List.append_assoc] at hlater
    refine List.pairwise_cons.2 ⟨fun other hmem ↦ ?_, hlater⟩
    obtain ⟨front, back, hsplit, hplace⟩ := exists_of_mem_placed hmem
    have hsource : before ++ segment.text ++ concat front ++ concat (other.segment :: back) =
        before ++ concat (segment :: rest) := by
      rw [List.append_assoc, ← concat_append, ← hsplit, List.append_assoc, concat_cons]
    -- Between the two places stand this segment and the ones in front of the other segment.
    have hhere := Text.Position.offset_after before (concat (segment :: rest))
    have hthere := Text.Position.offset_after (before ++ segment.text ++ concat front)
      (concat (other.segment :: back))
    rw [Text.Position.after_append, Text.Position.after_append, ← hplace, hsource,
      List.length_append, List.length_append] at hthere
    have hpos := List.length_pos_iff.2 hfirst
    rw [EndsBefore, PlacedSegment.span, PlacedSegment.span, hhere, hthere]
    dsimp only
    omega

/-- The segments of a source stand one behind the other. -/
theorem pairwise_placed_ofText (source : List Char) :
    (placed .start (ofText source)).Pairwise fun one other ↦
      EndsBefore source one.span other.span := by
  have hne : ∀ segment ∈ ofText source, segment.text ≠ [] := fun _ hmem ↦ text_ne_nil_of_mem hmem
  have hplaced := pairwise_placed [] hne
  rwa [List.nil_append, concat_ofText] at hplaced

/-- What is read off segments of a source stands in their order. -/
theorem pairwise_filterMap_placed {α : Type} {read : PlacedSegment → Option α}
    {span : α → Text.Span} (hread : ∀ placed x, read placed = some x → span x = placed.span)
    (source : List Char) :
    ((placed .start (ofText source)).filterMap read).Pairwise fun x y ↦
      EndsBefore source (span x) (span y) := by
  rw [List.pairwise_filterMap]
  refine (pairwise_placed_ofText source).imp fun hbefore x hx y hy ↦ ?_
  rwa [hread _ x hx, hread _ y hy]

theorem apart_of_mem_placed {source : List Char} {one other : PlacedSegment}
    (hone : one ∈ placed .start (ofText source)) (hother : other ∈ placed .start (ofText source))
    (hne : one ≠ other) : one.span.Apart source other.span := by
  have hplaced := (pairwise_placed_ofText source).imp
    (S := fun one other ↦ one.span.Apart source other.span) .inl
  have hsymm : Std.Symm fun one other : PlacedSegment ↦ one.span.Apart source other.span :=
    ⟨fun _ _ ↦ Text.Span.Apart.symm⟩
  exact hplaced.forall hone hother hne

/-- Every segment of a source starts and ends before the end of the source. -/
theorem endsBefore_of_mem_placed {source : List Char} {one : PlacedSegment}
    (h : one ∈ placed .start (ofText source)) (n : Nat) :
    one.span.EndsBefore source ⟨Text.Position.start.after source, n⟩ := by
  obtain ⟨front, back, hsplit, hplace⟩ := exists_of_mem_placed h
  have hmem : one.segment ∈ ofText source := hsplit ▸ List.mem_append_right _ List.mem_cons_self
  have hpos := List.length_pos_iff.2 (text_ne_nil_of_mem hmem)
  have hstands := (standsAt hsplit).standsBehind
  have hlength := hstands.starts.length_le
  have hinside := hstands.inside
  rw [List.length_drop] at hlength
  rw [EndsBefore, Text.Position.offset_start_after, PlacedSegment.span, hplace]
  dsimp only
  omega

end Segment

/-! ## The order of tokens -/

namespace TokenStream

open Text.Span (EndsBefore)

/-- The tokens of a source but the last one stand where the segments do that give them. -/
theorem map_span_relabel (source : List Char) :
    (relabel (Segment.tokens .start (Segment.ofText source))).map Token.span =
      ((Segment.placed .start (Segment.ofText source)).filterMap PlacedSegment.token?).map
        Token.span := by
  rw [relabel, map_relabelFrom fun _ _ ↦ rfl, Segment.tokens_eq_filterMap]

theorem pairwise_strays (source : String) :
    (ofSource source).strays.Pairwise fun run other ↦
      EndsBefore source.toList run.span other.span := by
  rw [ofSource, Segment.strays_eq_filterMap]
  exact Segment.pairwise_filterMap_placed
    (fun _ _ hread ↦ PlacedSegment.span_of_strayRun? hread) source.toList

/-- A token before the end of the input is a segment that is no run of stray characters. -/
theorem exists_placed_of_mem_relabel {source : List Char} {token : Token}
    (h : token ∈ relabel (Segment.tokens .start (Segment.ofText source))) :
    ∃ one ∈ Segment.placed .start (Segment.ofText source),
      one.strayRun? = none ∧ one.span = token.span := by
  have hmem := List.mem_map_of_mem (f := Token.span) h
  rw [map_span_relabel] at hmem
  obtain ⟨raw, hraw, hspan⟩ := List.mem_map.1 hmem
  obtain ⟨one, hone, hread⟩ := List.mem_filterMap.1 hraw
  refine ⟨one, hone, PlacedSegment.strayRun?_of_token? hread, ?_⟩
  rw [← hspan, PlacedSegment.span_of_token? hread]

theorem pairwise_tokens (source : String) :
    (ofSource source).tokens.Pairwise fun token other ↦
      EndsBefore source.toList token.span other.span := by
  have hraw := Segment.pairwise_filterMap_placed
    (fun _ _ hread ↦ PlacedSegment.span_of_token? hread) source.toList
  rw [← List.pairwise_map, ← map_span_relabel, List.pairwise_map] at hraw
  rw [ofSource_tokens, List.pairwise_append]
  refine ⟨hraw, List.pairwise_singleton _ _, fun token hmem last hlast ↦ ?_⟩
  obtain ⟨one, hone, -, hspan⟩ := exists_placed_of_mem_relabel hmem
  rw [List.mem_singleton.1 hlast, ← hspan]
  exact Segment.endsBefore_of_mem_placed hone 0

/-- A token of a source and a run of stray characters do not overlap. -/
theorem apart_of_mem {source : String} {token : Token} {run : StrayRun}
    (htoken : token ∈ (ofSource source).tokens) (hrun : run ∈ (ofSource source).strays) :
    token.span.Apart source.toList run.span := by
  rw [ofSource, Segment.strays_eq_filterMap] at hrun
  obtain ⟨other, hother, hrun⟩ := List.mem_filterMap.1 hrun
  rw [ofSource_tokens, List.mem_append, List.mem_singleton] at htoken
  rw [PlacedSegment.span_of_strayRun? hrun]
  rcases htoken with hmem | rfl
  · obtain ⟨one, hone, hnone, hspan⟩ := exists_placed_of_mem_relabel hmem
    rw [← hspan]
    refine Segment.apart_of_mem_placed hone hother ?_
    rintro rfl
    rw [hnone] at hrun
    cases hrun
  · exact .inr (Segment.endsBefore_of_mem_placed hother 0)

end TokenStream

/--
The line and the column of every token of a source, the end of the input included, and of every run
of stray characters are counted in the characters before it: the line in the line feeds among them,
the column in those behind the last line feed. The rest of the source starts with the text. Tokens
and runs each start and end before the next one starts, and no token overlaps a run. The end of
the input is the last token, and only the last one, and stands behind all characters.
-/
theorem ofSource_positions (source : String) :
    (∀ token ∈ (TokenStream.ofSource source).tokens,
      Text.StandsBehind source.toList (token.position.offset source.toList) token.position
        token.text.toList ∧ token.length = token.text.toList.length) ∧
    (∀ run ∈ (TokenStream.ofSource source).strays,
      Text.StandsBehind source.toList (run.position.offset source.toList) run.position
        run.text.toList) ∧
    (TokenStream.ofSource source).tokens.Pairwise (fun token other ↦
      token.span.EndsBefore source.toList other.span) ∧
    (TokenStream.ofSource source).strays.Pairwise (fun run other ↦
      run.span.EndsBefore source.toList other.span) ∧
    (∀ token ∈ (TokenStream.ofSource source).tokens, ∀ run ∈ (TokenStream.ofSource source).strays,
      token.span.Apart source.toList run.span) ∧
    ∃ body stop, (TokenStream.ofSource source).tokens = body ++ [⟨.endOfInput, "", stop⟩] ∧
      (∀ token ∈ body, token.kind ≠ .endOfInput) ∧
      stop.offset source.toList = source.toList.length := by
  refine ⟨fun token hmem ↦ ⟨?_, ?_⟩, fun run hmem ↦ ?_, ?_, ?_, ?_, ?_⟩
  · exact (TokenStream.standsAt_of_mem_tokens hmem).standsBehind
  · exact String.length_toList.symm
  · exact (TokenStream.standsAt_of_mem_strays hmem).standsBehind
  · exact TokenStream.pairwise_tokens source
  · exact TokenStream.pairwise_strays source
  · exact fun token htoken run hrun ↦ TokenStream.apart_of_mem htoken hrun
  · refine ⟨_, _, ofSource_tokens source, ?_, Text.Position.offset_start_after _⟩
    exact kind_of_mem_relabelFrom fun token hmem ↦ Segment.kind_of_mem_tokens hmem

end SchemaLang
