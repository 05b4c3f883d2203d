import SchemaLang.Proofs.Source.Coverage
import SchemaLang.Proofs.Source.Names
import SchemaLang.Proofs.Source.Words
import SchemaLang.Proofs.Text.Lines
import SchemaLang.Proofs.Tree.EarlyStop

/-!
# Where errors point

Every token and every run of stray characters stands at its place in the source, and only the end of
the input stands at the end (`standsAt_of_mem_tokens`, `standsAt_of_mem_strays`). An error of a
source is about one of them: a stray run, the token that a reader stops at, or the token at which
a name starts that is taken (`about_of_compile`). So its place is in a line of the source, the text
there starts with what the error is about, and the excerpt of a report has the caret below it
(`compile_error_located`).
-/

namespace SchemaLang

open Phrase

/-! ## Places of tokens -/

/-- A text stands at a place of a source, and nothing stands only at its end. -/
def Text.StandsAt (source : List Char) (p : Text.Position) (text : List Char) : Prop :=
  ∃ before behind, source = before ++ behind ∧ p = Text.Position.start.after before ∧
    text <+: behind ∧ (text = [] → behind = [])

theorem Segment.text_ne_nil_of_mem {source : List Char} {segment : Segment}
    (h : segment ∈ ofText source) : segment.text ≠ [] := by
  fun_induction ofText source with
  | case1 => exact absurd h List.not_mem_nil
  | case2 c rest form n hread hpos ih =>
    rcases List.mem_cons.1 h with rfl | hmem
    · exact List.ne_nil_of_length_pos (by simp [text]; omega)
    · exact ih hmem
  | case3 c rest hread hpos ih =>
    rcases List.mem_cons.1 h with rfl | hmem
    · exact List.ne_nil_of_length_pos (by simp [text]; omega)
    · exact ih hmem

/-- A segment of a source stands behind those before it. -/
theorem Segment.standsAt {source : List Char} {front back : List Segment} {segment : Segment}
    (h : ofText source = front ++ segment :: back) :
    Text.StandsAt source (Text.Position.start.after (concat front)) segment.text := by
  have hmem : segment ∈ ofText source := h ▸ List.mem_append_right front List.mem_cons_self
  refine ⟨concat front, concat (segment :: back), ?_, rfl, ?_, fun hnil ↦ ?_⟩
  · rw [← concat_append, ← h, concat_ofText]
  · rw [concat_cons]
    exact List.prefix_append _ _
  · exact absurd hnil (text_ne_nil_of_mem hmem)

namespace TokenStream

/-- Every token of a source stands at its place. -/
theorem standsAt_of_mem_tokens {source : String} {token : Token}
    (h : token ∈ (ofSource source).tokens) :
    Text.StandsAt source.toList token.position token.text.toList := by
  rw [ofSource_tokens, List.mem_append, List.mem_singleton] at h
  rcases h with hmem | rfl
  · obtain ⟨before, behind, hsplit⟩ := List.append_of_mem hmem
    obtain ⟨first, word, last, hraw, -, rfl, -⟩ := exists_of_relabelFrom_eq hsplit
    obtain ⟨front, segment, back, hsegments, -, hsegment, -⟩ := Segment.exists_of_tokens_eq hraw
    cases segment with
    | stray text => cases hsegment
    | lexeme form text =>
      obtain ⟨kind, -, rfl⟩ := Option.map_eq_some_iff.1 hsegment
      dsimp only
      rw [String.toList_ofList]
      exact Segment.standsAt hsegments
  · exact ⟨source.toList, [], (List.append_nil _).symm, rfl, List.nil_prefix, fun _ ↦ rfl⟩

theorem exists_of_mem_strays {p : Text.Position} {segments : List Segment} {run : StrayRun}
    (h : run ∈ (ofSegments p segments).strays) :
    ∃ front text back, segments = front ++ .stray text :: back ∧
      run = ⟨String.ofList text, p.after (Segment.concat front)⟩ := by
  induction segments generalizing p with
  | nil => cases h
  | cons segment rest ih =>
    have hbehind (h : run ∈ (ofSegments (p.after segment.text) rest).strays) :
        ∃ front text back, segment :: rest = front ++ .stray text :: back ∧
          run = ⟨String.ofList text, p.after (Segment.concat front)⟩ := by
      obtain ⟨front, text, back, rfl, rfl⟩ := ih h
      refine ⟨segment :: front, text, back, rfl, ?_⟩
      rw [Segment.concat_cons, Text.Position.after_append]
    cases segment with
    | stray text =>
      rcases List.mem_cons.1 h with rfl | hmem
      · exact ⟨[], text, rest, rfl, rfl⟩
      · exact hbehind hmem
    | lexeme form text =>
      rw [ofSegments] at h
      cases hkind : form.tokenKind? text with
      | none =>
        rw [hkind] at h
        exact hbehind h
      | some kind =>
        rw [hkind] at h
        exact hbehind h

/-- Every run of stray characters of a source stands at its place. -/
theorem standsAt_of_mem_strays {source : String} {run : StrayRun}
    (h : run ∈ (ofSource source).strays) :
    Text.StandsAt source.toList run.position run.text.toList := by
  obtain ⟨front, text, back, hsegments, rfl⟩ := exists_of_mem_strays h
  dsimp only
  rw [String.toList_ofList]
  exact Segment.standsAt hsegments

end TokenStream

/-! ## What errors are about -/

/-- The text of a token or of a run of stray characters that an error is about. -/
inductive SourceError.About (stream : TokenStream) : SourceError → String → Prop
  /-- A run in which no token starts. -/
  | stray {run : StrayRun} (hmem : run ∈ stream.strays) :
      About stream ⟨.stray run.text, run.position⟩ run.text
  /-- A token, perhaps the end of the input, in place of what is expected. -/
  | token {token : Token} {problem : SourceProblem} (hmem : token ∈ stream.tokens)
      (hnames : problem.Names token) : About stream ⟨problem, token.position⟩ token.text
  /-- The token at which a name starts: the name itself, or the first segment of a dotted name. -/
  | name {token : Token} {name : String} (hmem : token ∈ stream.tokens)
      (hkind : token.kind = .identifier)
      (hname : token.text.toList = name.toList.takeWhile (· ≠ '.')) :
      About stream ⟨.definedTwice name, token.position⟩ token.text

theorem SourceError.About.standsAt {source : String} {error : SourceError} {text : String}
    (h : error.About (.ofSource source) text) :
    Text.StandsAt source.toList error.position text.toList := by
  cases h with
  | stray hmem => exact TokenStream.standsAt_of_mem_strays hmem
  | token hmem => exact TokenStream.standsAt_of_mem_tokens hmem
  | name hmem => exact TokenStream.standsAt_of_mem_tokens hmem

/-- The error of a source is that of one of its three stages. -/
theorem stage_of_compile {source : String} {error : SourceError}
    (h : compile source = .error error) :
    tokensOf source = .error error ∨
      (∃ tokens, tokensOf source = .ok tokens ∧ parseItems tokens = .error error) ∨
      ∃ nodes, itemsOf source = .ok nodes ∧ verifyNames nodes = .error error := by
  rcases bind_eq_error.1 h with hverified | ⟨nodes, -, hnever⟩
  · rcases bind_eq_error.1 hverified with hitems | ⟨nodes, hitems, hnames⟩
    · rcases bind_eq_error.1 hitems with htokens | ⟨tokens, htokens, hparse⟩
      · exact .inl htokens
      · exact .inr (.inl ⟨tokens, htokens, hparse⟩)
    · rcases bind_eq_error.1 hnames with hverify | ⟨_, -, hnever⟩
      · exact .inr (.inr ⟨nodes, hitems, hverify⟩)
      · cases hnever
  · cases hnever

/-- The name of an item starts with a name among its tokens. -/
theorem nameToken_mem_tokens (item : ItemPhrase) :
    item.node.nameToken ∈ tokens item ∧ item.node.nameToken.kind = .identifier := by
  cases item with
  | schema phrase =>
    refine ⟨?_, phrase.name.2⟩
    exact List.mem_append_left _ (List.mem_append_right _ List.mem_cons_self)
  | plugin phrase =>
    refine ⟨?_, phrase.first.2⟩
    simp [tokens, ItemPhrase.node, PluginPhrase.node, ItemNode.nameToken]

/-- A name is that of its first token up to the first dot. -/
theorem ItemNode.takeWhile_name {node : ItemNode} (h : '.' ∉ node.nameToken.text.toList) :
    node.name.toList.takeWhile (· ≠ '.') = node.nameToken.text.toList := by
  have hfirst (rest : List Char) (hrest : rest.takeWhile (· ≠ '.') = []) :
      (node.nameToken.text.toList ++ rest).takeWhile (· ≠ '.') = node.nameToken.text.toList := by
    rw [List.takeWhile_append_of_pos, hrest, List.append_nil]
    exact fun c hc ↦ decide_eq_true fun heq ↦ h (heq ▸ hc)
  cases node with
  | schema node =>
    have hwhole := hfirst [] rfl
    rw [List.append_nil] at hwhole
    exact hwhole
  | plugin node =>
    rw [ItemNode.name, PluginNode.name, PluginNode.path, String.toList_intercalate]
    cases hmore : node.more with
    | nil =>
      have hwhole := hfirst [] rfl
      rw [List.append_nil] at hwhole
      simp only [List.map_cons, List.map_nil, List.intercalate_singleton]
      exact hwhole
    | cons second more =>
      simp only [List.map_cons, List.intercalate_cons_cons, List.append_assoc]
      exact hfirst _ (by simp)

theorem dot_notMem_of_isWordText {text : List Char} (h : Text.IsWordText text) : '.' ∉ text := by
  intro hmem
  have hdot := List.all_eq_true.1 h '.' hmem
  revert hdot
  decide

/-- The first stray run is what makes a source no list of tokens. -/
theorem about_of_tokensOf {source : String} {error : SourceError}
    (h : tokensOf source = .error error) : ∃ text, error.About (.ofSource source) text := by
  rw [tokensOf] at h
  cases hstrays : (TokenStream.ofSource source).strays with
  | nil =>
    rw [hstrays] at h
    cases h
  | cons run rest =>
    rw [hstrays] at h
    cases h
    exact ⟨run.text, .stray (hstrays ▸ List.mem_cons_self)⟩

theorem about_of_parseItems {source : String} {tokens : List Token} {error : SourceError}
    (htokens : tokensOf source = .ok tokens) (h : parseItems tokens = .error error) :
    ∃ text, error.About (.ofSource source) text := by
  obtain ⟨front, token, more, hsplit, hposition, hnames, -⟩ :=
    exists_stop_of_parseItems (terminated_of_tokensOf htokens) h
  obtain ⟨-, rfl⟩ := tokensOf_eq_ok_iff_stream.1 htokens
  have hmem : token ∈ (TokenStream.ofSource source).tokens := by
    rw [hsplit]
    exact List.mem_append_right front List.mem_cons_self
  have habout := SourceError.About.token hmem hnames
  rw [← hposition] at habout
  exact ⟨token.text, habout⟩

theorem about_of_verifyNames {source : String} {nodes : List ItemNode} {error : SourceError}
    (hitems : itemsOf source = .ok nodes) (h : verifyNames nodes = .error error) :
    ∃ text, error.About (.ofSource source) text := by
  obtain ⟨unit, p, htokens, rfl⟩ := itemsOf_eq_ok_iff.1 hitems
  rw [verifyNames] at h
  cases hrepeated : firstRepeated? [] unit.nodes with
  | none =>
    rw [hrepeated] at h
    cases h
  | some node =>
    rw [hrepeated] at h
    cases h
    obtain ⟨before, behind, hnodes, -, -⟩ := exists_of_firstRepeated? hrepeated
    have hnode : node ∈ unit.nodes := hnodes ▸ List.mem_append_right before List.mem_cons_self
    obtain ⟨item, hitem, rfl⟩ := List.mem_map.1 hnode
    obtain ⟨hmem, hkind⟩ := nameToken_mem_tokens item
    have hname : item.node.nameToken ∈ tokens unit := List.mem_flatMap.2 ⟨item, hitem, hmem⟩
    have hword := isWordText_of_tokensOf htokens hname hkind
    obtain ⟨-, hstream⟩ := tokensOf_eq_ok_iff_stream.1 htokens
    refine ⟨item.node.nameToken.text, .name ?_ hkind ?_⟩
    · rw [hstream]
      exact List.mem_append_left _ hname
    · exact (ItemNode.takeWhile_name (dot_notMem_of_isWordText hword)).symm

/-- The error of a source is about a token or a run of stray characters at its place. -/
theorem about_of_compile {source : String} {error : SourceError}
    (h : compile source = .error error) : ∃ text, error.About (.ofSource source) text := by
  rcases stage_of_compile h with hlexing | ⟨tokens, htokens, hparse⟩ | ⟨nodes, hitems, hverify⟩
  · exact about_of_tokensOf hlexing
  · exact about_of_parseItems htokens hparse
  · exact about_of_verifyNames hitems hverify

/--
The error of a source that is refused has a place in one of the lines of the source, at most behind
its last character. The text from there on starts with the token or the stray run that the error is
about, and it is empty if that is the end of the input. The excerpt for the place shows its line,
below the one or two lines right before it as far as there are any, and a caret below its column.
-/
theorem compile_error_located {source : String} {error : SourceError}
    (h : compile source = .error error) :
    ∃ earlier line later, Text.lines source.toList = earlier ++ line :: later ∧
      error.position.line = earlier.length + 1 ∧
      error.position.line ≤ (Text.lines source.toList).length ∧
      1 ≤ error.position.column ∧ error.position.column ≤ line.length + 1 ∧
      (∃ text behind, error.About (.ofSource source) text ∧
        source.toList =
          Text.unlines earlier ++ line.take (error.position.column - 1) ++ behind ∧
        text.toList <+: behind ∧ (text = "" → behind = [])) ∧
      ∃ shown, shown <:+ earlier ∧ shown.length = min 2 earlier.length ∧
        (Report.excerpt source error.position.line error.position.column).toList =
          Text.unlines (shown ++ [line]) ++
            (List.replicate (error.position.column - 1) ' ' ++ ['^']) := by
  obtain ⟨text, habout⟩ := about_of_compile h
  obtain ⟨before, behind, hsource, hposition, hstarts, hend⟩ := habout.standsAt
  obtain ⟨earlier, part, rest, later, rfl, hlines, hplace⟩ := Text.exists_lines before behind
  rw [← hsource] at hlines
  rw [hplace] at hposition
  refine ⟨earlier, part ++ rest, later, hlines, ?_, ?_, ?_, ?_, ?_, ?_⟩
  · rw [hposition]
  · rw [hposition, hlines, List.length_append, List.length_cons]
    dsimp only
    omega
  · rw [hposition]
    exact Nat.le_add_left 1 _
  · rw [hposition, List.length_append]
    dsimp only
    omega
  · refine ⟨text, behind, habout, ?_, hstarts, fun hempty ↦ hend (by rw [hempty]; rfl)⟩
    rw [hposition, Nat.add_sub_cancel, List.take_left]
    exact hsource
  · rw [hposition]
    exact Report.excerpt_of_lines hlines _

/-- An end of the input behind a string with a line feed in it and below a carriage return. -/
theorem compile_error_located_below_string :
    let source := "schema A \x7b\r\n  x string = \"a\nb\"\r\n  y"
    compile source = .error ⟨.unexpected .fieldType none, ⟨4, 4⟩⟩ ∧
    (∃ earlier line later, Text.lines source.toList = earlier ++ line :: later ∧
      4 = earlier.length + 1 ∧ 4 ≤ (Text.lines source.toList).length ∧ 4 ≤ line.length + 1 ∧
      (∃ text behind, SourceError.About (.ofSource source)
          ⟨.unexpected .fieldType none, ⟨4, 4⟩⟩ text ∧
        source.toList = Text.unlines earlier ++ line.take 3 ++ behind ∧
        text.toList <+: behind ∧ (text = "" → behind = [])) ∧
      ∃ shown, shown <:+ earlier ∧ shown.length = min 2 earlier.length ∧
        (Report.excerpt source 4 4).toList =
          Text.unlines (shown ++ [line]) ++ (List.replicate 3 ' ' ++ ['^'])) ∧
    Report.excerpt source 4 4 = "  x string = \"a\nb\"\r\n  y\n   ^" := by
  intro source
  have herror : compile source = .error ⟨.unexpected .fieldType none, ⟨4, 4⟩⟩ := by
    decide +kernel
  obtain ⟨earlier, line, later, hlines, hline, hbound, -, hcolumn, hplace, hshown⟩ :=
    compile_error_located herror
  exact ⟨herror, ⟨earlier, line, later, hlines, hline, hbound, hcolumn, hplace, hshown⟩,
    by decide +kernel⟩

end SchemaLang
