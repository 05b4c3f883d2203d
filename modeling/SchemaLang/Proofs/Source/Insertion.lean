import SchemaLang.Proofs.Source.Contents
import SchemaLang.Proofs.Source.ReservedWords
import SchemaLang.Proofs.Token.Insertion

/-!
# Text inserted into a source

Text that is inserted behind a token of a source leaves the tokens before it as they are and moves
those behind it, if it stays on the line and in the scope (`tokensOf_insert`). Behind a token of a
field, in an accepted source, this makes another field of it or makes the source refused, and in the
first case nothing else of the definitions changes (`exists_changed`).
-/

namespace SchemaLang

open Phrase

/-! ## Tokens behind a token -/

/-- The segment of a token, with the segments of the other tokens before and behind it. -/
theorem exists_segment_of_relabel {segments : List Segment} {before behind : List Token}
    {token : Token} (h : relabel (Segment.tokens .start segments) = before ++ token :: behind) :
    ∃ (head : List Segment) (form : LexemeForm) (text : List Char) (tail : List Segment)
      (kind : TokenKind),
      segments = head ++ .lexeme form text :: tail ∧ form.tokenKind? text = some kind ∧
      token.text = String.ofList text ∧
      token.position = Text.Position.start.after (Segment.concat head) ∧
      relabel (Segment.tokens .start (head ++ [.lexeme form text])) = before ++ [token] ∧
      relabelFrom (Scope.outside.after (before ++ [token]))
        (Segment.tokens (token.position.after text) tail) = behind := by
  obtain ⟨first, raw, last, hraw, hfirst, rfl, hlast⟩ := exists_of_relabelFrom_eq h
  obtain ⟨head, segment, tail, rfl, rfl, hsegment, rfl⟩ := Segment.exists_of_tokens_eq hraw
  cases segment with
  | stray text => cases hsegment
  | lexeme form text =>
    have htoken := hsegment
    obtain ⟨kind, hform, rfl⟩ := Option.map_eq_some_iff.1 hsegment
    refine ⟨head, form, text, tail, kind, rfl, hform, rfl, rfl, ?_, ?_⟩
    · rw [relabel, Segment.tokens_append, relabelFrom_append, hfirst, Segment.tokens, htoken,
        ← after_relabelFrom, hfirst]
      rfl
    · rw [Scope.after_append, Scope.after_cons, Scope.after_nil, Scope.advance_advance]
      exact hlast

/--
Text inserted behind a token of a source. It starts with a character that ends the token, stays on
the line, and leaves the scope as it is. Its tokens are added, those before it stay where they are,
and those behind it are moved.
-/
theorem tokensOf_insert {source : String} {before behind : List Token} {token : Token}
    {stop : Text.Position}
    (h : tokensOf source = .ok (before ++ token :: behind ++ [Segment.endToken stop])) :
    ∃ front back : List Char, source.toList = front ++ (token.text.toList ++ back) ∧
      token.position = Text.Position.start.after front ∧
      ∀ (c : Char) (more : List Char) (added : List Token), LexemeForm.endsToken c = true →
        '\n' ∉ c :: more →
        TokenStream.Gives (token.position.after token.text.toList) (c :: more) back added →
        (Scope.outside.after (before ++ [token])).after added =
          Scope.outside.after (before ++ [token]) →
        ∃ (move : Text.Position → Text.Position) (stop : Text.Position),
          tokensOf (String.ofList (front ++ (token.text.toList ++ (c :: more ++ back)))) =
            .ok (before ++ token :: (relabelFrom (Scope.outside.after (before ++ [token])) added ++
              behind.map (·.moved move)) ++ [Segment.endToken stop]) ∧
          (before ++ [token]).map (·.moved move) = before ++ [token] := by
  obtain ⟨segments, hcut, hconcat, htokens⟩ := tokensOf_eq_ok_iff.1 h
  obtain ⟨hrelabel, -⟩ := List.append_inj' htokens rfl
  obtain ⟨head, form, text, tail, kind, rfl, hkind, htext, hposition, hfirst, hlast⟩ :=
    exists_segment_of_relabel hrelabel.symm
  have hsplit : head ++ .lexeme form text :: tail = head ++ [.lexeme form text] ++ tail := by
    rw [List.append_assoc, List.singleton_append]
  have hconcatFirst : Segment.concat (head ++ [.lexeme form text]) =
      Segment.concat head ++ text := by
    rw [Segment.concat_append, Segment.concat_cons, Segment.concat_nil, List.append_nil,
      Segment.text]
  have hplace : Text.Position.start.after (Segment.concat (head ++ [.lexeme form text])) =
      token.position.after text := by
    rw [hconcatFirst, Text.Position.after_append, hposition]
  refine ⟨Segment.concat head, Segment.concat tail, ?_, hposition, ?_⟩
  · rw [htext, String.toList_ofList, ← hconcat, hsplit, Segment.concat_append, hconcatFirst,
      List.append_assoc]
  intro c more added hc hline hgives hscope
  rw [htext, String.toList_ofList] at hgives ⊢
  have hform (other : LexemeForm) (body : List Char)
      (h : (head ++ [Segment.lexeme form text]).getLast? = some (.lexeme other body)) :
      other ≠ .blank ∧ other ≠ .comment := by
    rw [List.getLast?_concat, Option.some.injEq, Segment.lexeme.injEq] at h
    obtain ⟨rfl, rfl⟩ := h
    constructor <;> rintro rfl <;> cases hkind
  obtain ⟨move, stop, hread, hmoved⟩ :=
    TokenStream.ofText_insert (hsplit ▸ hcut) hform hc hline (hplace ▸ hgives)
  rw [hplace, hconcatFirst, List.append_assoc] at hread
  refine ⟨move, stop, ?_, ?_⟩
  · rw [tokensOf_of_ofText ((congrArg _ String.toList_ofList).trans hread), relabel,
      relabelFrom_append_endToken, relabelFrom_append, ← relabel, hfirst, relabelFrom_append,
      ← after_relabelFrom, ← relabel, hfirst, hscope, relabelFrom_moved, hlast]
    simp only [List.append_assoc, List.singleton_append]
  · rw [← hfirst, relabel, ← relabelFrom_moved, hmoved]

/-! ## Places in moved units -/

section Moved

variable (move : Text.Position → Text.Position)

theorem tokens_take_moved {δ : Type} [Phrase δ] (phrases : List δ) (n : Nat) :
    tokens ((Phrase.moved move phrases).take n) =
      (tokens (phrases.take n)).map (·.moved move) := by
  rw [← tokens_moved]
  exact congrArg tokens List.map_take.symm

theorem tokens_drop_moved {δ : Type} [Phrase δ] (phrases : List δ) (n : Nat) :
    tokens ((Phrase.moved move phrases).drop n) =
      (tokens (phrases.drop n)).map (·.moved move) := by
  rw [← tokens_moved]
  exact congrArg tokens List.map_drop.symm

theorem getElem?_moved {δ : Type} [Phrase δ] {phrases : List δ} {i : Nat} {phrase : δ}
    (h : phrases[i]? = some phrase) :
    (Phrase.moved move phrases)[i]? = some (Phrase.moved move phrase) := by
  have hmap : (phrases.map (Phrase.moved move))[i]? = some (Phrase.moved move phrase) := by
    rw [List.getElem?_map, h, Option.map_some]
  exact hmap

theorem SignaturePhrase.part_moved (part : MethodPart) (p : SignaturePhrase) :
    (Phrase.moved move p).part part = Phrase.moved move (p.part part) := by
  cases part <;> cases p <;> rfl

theorem SignaturePhrase.front_moved (part : MethodPart) (p : SignaturePhrase) :
    (Phrase.moved move p).front part = (p.front part).map (·.moved move) := by
  cases part <;> cases p <;>
    simp only [front, List.map_nil, List.map_append, ← tokens_moved] <;> rfl

theorem SignaturePhrase.back_moved (part : MethodPart) (p : SignaturePhrase) :
    (Phrase.moved move p).back part = (p.back part).map (·.moved move) := by
  cases part <;> cases p <;>
    simp only [back, List.map_nil, ← tokens_moved] <;> rfl

theorem MethodPhrase.front_moved (part : MethodPart) (p : MethodPhrase) :
    (Phrase.moved move p).front part = (p.front part).map (·.moved move) := by
  simp only [front, List.map_append, ← tokens_moved, ← SignaturePhrase.front_moved]
  rfl

theorem PluginPhrase.front_moved (p : PluginPhrase) :
    (Phrase.moved move p).front = p.front.map (·.moved move) := by
  simp only [front, List.map_append, ← tokens_moved]
  rfl

/-- The site of a block is a site of the moved block, once its tokens are moved. -/
theorem exists_site_moved {unit : UnitPhrase} {place : BlockPlace} {block : BlockPhrase}
    (h : unit.block? place = some block) : ∃ front back, Site unit place block front back ∧
      ∀ move, Site (Phrase.moved move unit) place (Phrase.moved move block)
        (front.map (·.moved move)) (back.map (·.moved move)) := by
  obtain ⟨item, p, rfl, hitem, rfl⟩ | ⟨item, number, part, p, method, rfl, hitem, hmethod, hpart⟩ :=
    UnitPhrase.exists_of_block? h
  · refine ⟨_, _, site_schema hitem, fun move ↦ ?_⟩
    have hmoved := site_schema (p := Phrase.moved move p) (getElem?_moved move hitem)
    rw [tokens_take_moved, tokens_drop_moved] at hmoved
    simp only [List.map_append, ← tokens_moved] at hmoved ⊢
    exact hmoved
  · refine ⟨_, _, site_method hitem hmethod hpart, fun move ↦ ?_⟩
    have hmovedPart : (Phrase.moved move method).signature.part part =
        .block (Phrase.moved move block) :=
      (method.signature.part_moved move part).trans (by rw [hpart]; rfl)
    have hmoved := site_method (p := Phrase.moved move p) (getElem?_moved move hitem)
      (getElem?_moved move hmethod) hmovedPart
    have hmethods : (Phrase.moved move p).methods = Phrase.moved move p.methods := rfl
    have hclosing : (Phrase.moved move p).closing = Phrase.moved move p.closing := rfl
    have hsignature : (Phrase.moved move method).signature =
        Phrase.moved move method.signature := rfl
    rw [hmethods, hclosing, hsignature, p.front_moved, method.front_moved,
      method.signature.back_moved, tokens_take_moved, tokens_take_moved, tokens_drop_moved,
      tokens_drop_moved, tokens_moved] at hmoved
    simpa only [List.map_append] using hmoved

end Moved

/-! ## Fields of a unit -/

/-- Changes the field at a place of a unit. -/
def UnitPhrase.modifyField (unit : UnitPhrase) (place : FieldPlace)
    (change : FieldPhrase → FieldPhrase) : UnitPhrase :=
  place.block.modifyPhrase (fun block ↦
    { block with fields := block.fields.modify place.field change }) unit

theorem SignaturePhrase.part_modifyPart (change : ParamsPhrase → ParamsPhrase) (part : MethodPart)
    (p : SignaturePhrase) : (p.modifyPart change part).part part = change (p.part part) := by
  cases part <;> cases p <;> rfl

theorem UnitPhrase.field?_modifyField (unit : UnitPhrase) (place : FieldPlace)
    (change : FieldPhrase → FieldPhrase) :
    (unit.modifyField place change).field? place = (unit.field? place).map change := by
  have hblock (change : BlockPhrase → BlockPhrase) :
      (place.block.modifyPhrase change unit).block? place.block =
        (unit.block? place.block).map change := by
    obtain ⟨block, number⟩ := place
    cases block with
    | schema item =>
      dsimp only [BlockPlace.modifyPhrase, block?]
      rw [List.getElem?_modify_eq]
      rcases unit[item]? with - | (p | p) <;> rfl
    | method item number part =>
      dsimp only [BlockPlace.modifyPhrase, block?, method?]
      rw [List.getElem?_modify_eq]
      rcases unit[item]? with - | (p | p)
      · rfl
      · rfl
      have hpart (p : ParamsPhrase) : (p.modifyBlock change).block? = p.block?.map change := by
        cases p <;> rfl
      simp only [Option.map_eq_map, Option.map_some, Option.bind_some, ItemPhrase.modifyMethod,
        ItemPhrase.method?, List.getElem?_modify_eq, Option.bind_map, Option.map_bind]
      congr 1
      funext method
      exact (congrArg _ (SignaturePhrase.part_modifyPart _ _ _)).trans (hpart _)
  rw [field?, modifyField, hblock, field?, Option.bind_map, Option.map_bind]
  congr 1
  funext block
  exact List.getElem?_modify_eq ..

/-- A block is where it was when the tokens of the unit are moved. -/
theorem UnitPhrase.block?_moved {unit : UnitPhrase} {place : BlockPlace} {block : BlockPhrase}
    (h : unit.block? place = some block) (move : Text.Position → Text.Position) :
    (Phrase.moved move unit).block? place = some (Phrase.moved move block) := by
  obtain ⟨item, p, rfl, hitem, rfl⟩ | ⟨item, number, part, p, method, rfl, hitem, hmethod, hpart⟩ :=
    exists_of_block? h
  · rw [block?, getElem?_moved move hitem]
    rfl
  · have hmoved : (Phrase.moved move unit).method? item number =
        some (Phrase.moved move method) := by
      rw [method?, getElem?_moved move hitem]
      exact getElem?_moved move hmethod
    have hmovedPart := method.signature.part_moved move part
    rw [hpart] at hmovedPart
    rw [block?, hmoved]
    exact congrArg ParamsPhrase.block? hmovedPart

/-- A field is where it was when the tokens of the unit are moved. -/
theorem UnitPhrase.field?_moved {unit : UnitPhrase} {place : FieldPlace} {field : FieldPhrase}
    (h : unit.field? place = some field) (move : Text.Position → Text.Position) :
    (Phrase.moved move unit).field? place = some (Phrase.moved move field) := by
  obtain ⟨block, hblock, hfield⟩ := Option.bind_eq_some_iff.1 h
  rw [field?, block?_moved hblock move]
  exact getElem?_moved move hfield

/-- What is ignored in a field is ignored in its unit. -/
theorem UnitPhrase.ignoredOptions_of_field? {unit : UnitPhrase} {place : FieldPlace}
    {field : FieldPhrase} (h : unit.field? place = some field) {option : IgnoredOption}
    (hoption : option ∈ field.node.ignoredOptions) :
    option ∈ unit.nodes.flatMap ItemNode.ignoredOptions := by
  obtain ⟨block, hblock, hfield⟩ := Option.bind_eq_some_iff.1 h
  have hfields : option ∈ block.nodes.flatMap FieldNode.ignoredOptions :=
    List.mem_flatMap.2 ⟨_, List.mem_map_of_mem (List.mem_of_getElem? hfield), hoption⟩
  have hunit {item : Nat} {p : ItemPhrase} (hitem : unit[item]? = some p)
      (hp : option ∈ p.node.ignoredOptions) :
      option ∈ unit.nodes.flatMap ItemNode.ignoredOptions :=
    List.mem_flatMap.2 ⟨_, List.mem_map_of_mem (List.mem_of_getElem? hitem), hp⟩
  obtain ⟨item, p, -, hitem, rfl⟩ | ⟨item, number, part, p, method, -, hitem, hmethod, hpart⟩ :=
    exists_of_block? hblock
  · refine hunit hitem ?_
    rw [ItemPhrase.node, ItemNode.ignoredOptions_schema]
    exact hfields
  · refine hunit hitem ?_
    rw [ItemPhrase.node, ItemNode.ignoredOptions_plugin]
    refine List.mem_flatMap.2 ⟨_, List.mem_map_of_mem (List.mem_of_getElem? hmethod), ?_⟩
    have hparams : option ∈ (method.signature.part part).node.ignoredOptions := by
      rw [hpart, ParamsPhrase.node, ParamsNode.ignoredOptions_block]
      exact hfields
    cases part with
    | parameters => exact List.mem_append_left _ hparams
    | results => exact List.mem_append_right _ (List.mem_append_left _ hparams)

/-- A field put in a place of a unit is put there in the definitions. -/
theorem UnitPhrase.ofNode_modifyField (unit : UnitPhrase) (place : FieldPlace)
    (field : FieldPhrase) :
    (unit.modifyField place fun _ ↦ field).nodes.map Definition.ofNode =
      place.modify (fun _ ↦ Field.ofNode field.node) (unit.nodes.map Definition.ofNode) := by
  refine BlockPlace.nodes_modifyPhrase (fun block ↦ ?_) unit place.block
  unfold BlockPhrase.nodes
  rw [List.map_map, List.map_map]
  exact map_modify (f := Field.ofNode ∘ FieldPhrase.node) (fun _ ↦ rfl) block.fields place.field

/--
The tokens of a unit split at a field. Other fields can stand there, at other places too, and what
is refused as a field is refused there.
-/
structure FieldSite (unit : UnitPhrase) (place : FieldPlace) (field : FieldPhrase)
    (front back : List Token) : Prop where
  tokens_unit : tokens unit = front ++ (tokens field ++ back)
  tokens_modify : ∀ move change, tokens
    (UnitPhrase.modifyField (Phrase.moved move unit) place change) =
      front.map (·.moved move) ++
        (tokens (change (Phrase.moved move field)) ++ back.map (·.moved move))
  refused : ∀ {input refusal}, TokenReader.startsWith .identifier input = true →
    TokenReader.field input = .error refusal →
    TokenReader.items (front ++ input) = .error refusal

theorem exists_fieldSite {unit : UnitPhrase} {place : FieldPlace} {field : FieldPhrase}
    (h : unit.field? place = some field) : ∃ front back, FieldSite unit place field front back := by
  obtain ⟨block, hblock, hfield⟩ := Option.bind_eq_some_iff.1 h
  obtain ⟨front, back, hsite, hmoved⟩ := exists_site_moved hblock
  have htokens (block : BlockPhrase) : tokens block =
      tokens block.opening ++ (tokens block.fields ++ tokens block.closing) :=
    List.append_assoc ..
  refine ⟨front ++ (tokens block.opening ++ tokens (block.fields.take place.field)),
    tokens (block.fields.drop (place.field + 1)) ++ (tokens block.closing ++ back), ?_, ?_, ?_⟩
  · rw [hsite.tokens_unit, htokens, tokens_of_getElem? hfield]
    simp only [List.append_assoc]
  · intro move change
    have hfields := tokens_modify (getElem?_moved move hfield) change
    rw [tokens_take_moved, tokens_drop_moved] at hfields
    rw [UnitPhrase.modifyField, (hmoved move).tokens_modify, htokens]
    have hblockFields : (Phrase.moved move block).fields = Phrase.moved move block.fields := rfl
    have hopening : (Phrase.moved move block).opening = Phrase.moved move block.opening := rfl
    have hclosing : (Phrase.moved move block).closing = Phrase.moved move block.closing := rfl
    dsimp only
    rw [hblockFields, hfields, hopening, hclosing, tokens_moved, tokens_moved]
    simp only [List.map_append, List.append_assoc]
  · intro input refusal hstart hrefused
    have hbrace : TokenReader.startsWith .leftBrace
        (tokens block.opening ++ (tokens (block.fields.take place.field) ++ input)) = true :=
      (TokenReader.headed_terminal .leftBrace).startsWith block.opening _
    have hfields := TokenReader.many_refused TokenReader.reads_field TokenReader.headed_field
      (by decide) (block.fields.take place.field) hstart hrefused
    simp only [List.append_assoc]
    refine hsite.refused hbrace ?_
    refine ((TokenReader.reads_take _ _).bind block.opening
      (TokenReader.startsWithNone_nil _) _).trans ?_
    dsimp only
    rw [hfields, error_bind]

/-! ## Fields with inserted text -/

/-- A kind of token that is the same in every scope and leaves it as it is. -/
def TokenKind.isPlain (kind : TokenKind) : Bool :=
  !kind.isReserved && kind ≠ .leftBrace && kind ≠ .rightBrace

theorem Scope.advance_of_isPlain {kind : TokenKind} (h : kind.isPlain = true) (scope : Scope) :
    scope.advance kind = (scope, kind) := by
  cases scope <;> cases kind <;> first | rfl | cases h

theorem after_of_isPlain {added : List Token} (h : ∀ token ∈ added, token.kind.isPlain = true)
    (scope : Scope) : scope.after added = scope := by
  induction added with
  | nil => rfl
  | cons token added ih =>
    obtain ⟨htoken, hadded⟩ := List.forall_mem_cons.1 h
    rw [Scope.after_cons, Scope.advance_of_isPlain htoken, ih hadded]

theorem relabelFrom_of_isPlain {added : List Token}
    (h : ∀ token ∈ added, token.kind.isPlain = true) (scope : Scope) :
    relabelFrom scope added = added := by
  induction added with
  | nil => rfl
  | cons token added ih =>
    obtain ⟨htoken, hadded⟩ := List.forall_mem_cons.1 h
    rw [relabelFrom, Scope.advance_of_isPlain htoken, ih hadded]

section Inserted

variable {source : String} {unit : UnitPhrase} {place : FieldPlace} {field : FieldPhrase}
  {before behind lead trail : List Token} {last : Token}

/-- The tokens of a source with text inserted behind a token of a field. -/
theorem tokensOf_insert_field {stop : Text.Position}
    (h : tokensOf source = .ok (tokens unit ++ [Segment.endToken stop]))
    (hsite : FieldSite unit place field before behind)
    (hsplit : tokens field = lead ++ last :: trail) :
    ∃ front back : List Char, source.toList = front ++ (last.text.toList ++ back) ∧
      last.position = Text.Position.start.after front ∧
      ∀ (c : Char) (more : List Char) (added : List Token), LexemeForm.endsToken c = true →
        '\n' ∉ c :: more → (∀ token ∈ added, token.kind.isPlain = true) →
        TokenStream.Gives (last.position.after last.text.toList) (c :: more) back added →
        ∃ (move : Text.Position → Text.Position) (stop : Text.Position),
          tokensOf (String.ofList (front ++ (last.text.toList ++ (c :: more ++ back)))) =
            .ok (before ++ ((lead ++ last :: (added ++ trail.map (·.moved move))) ++
              behind.map (·.moved move)) ++ [Segment.endToken stop]) ∧
          before.map (·.moved move) = before := by
  have hunit : tokens unit = (before ++ lead) ++ last :: (trail ++ behind) := by
    rw [hsite.tokens_unit, hsplit]
    simp only [List.append_assoc, List.cons_append]
  rw [hunit] at h
  obtain ⟨front, back, hsource, hposition, hinsert⟩ := tokensOf_insert h
  refine ⟨front, back, hsource, hposition, fun c more added hc hline hplain hgives ↦ ?_⟩
  obtain ⟨move, stop, htokens, hmoved⟩ :=
    hinsert c more added hc hline hgives (after_of_isPlain hplain _)
  rw [relabelFrom_of_isPlain hplain] at htokens
  rw [List.append_assoc, List.map_append] at hmoved
  refine ⟨move, stop, ?_, (List.append_inj hmoved (List.length_map _)).1⟩
  rw [htokens]
  simp only [List.map_append, List.append_assoc, List.cons_append]

/--
What becomes of a source when the tokens of a field are others: those of another field are accepted,
and nothing else changes, and those that are refused as a field are refused.
-/
structure Changed (unit : UnitPhrase) (place : FieldPlace) (changed : String)
    (move : Text.Position → Text.Position) (first trail : List Token) : Prop where
  accepted : ∀ other : FieldPhrase, tokens other = first ++ trail.map (·.moved move) →
    itemsOf changed = .ok (UnitPhrase.nodes
      (UnitPhrase.modifyField (Phrase.moved move unit) place fun _ ↦ other)) ∧
    compile changed =
      .ok (place.modify (fun _ ↦ Field.ofNode other.node) (unit.nodes.map Definition.ofNode))
  refused : ∀ refusal, (∀ rest, TokenReader.field (first ++ rest) = .error refusal) →
    ∃ stop, compile changed = .error (refusal.toError stop)

/-- Text inserted behind a token of a field of an accepted source. -/
theorem exists_changed {stop : Text.Position}
    (h : tokensOf source = .ok (tokens unit ++ [Segment.endToken stop]))
    (hnames : verifyNames unit.nodes = .ok ()) (hfield : unit.field? place = some field)
    (hsplit : tokens field = lead ++ last :: trail) :
    ∃ front back : List Char, source.toList = front ++ (last.text.toList ++ back) ∧
      last.position = Text.Position.start.after front ∧
      ∀ (c : Char) (more : List Char) (added : List Token), LexemeForm.endsToken c = true →
        '\n' ∉ c :: more → (∀ token ∈ added, token.kind.isPlain = true) →
        TokenStream.Gives (last.position.after last.text.toList) (c :: more) back added →
        ∃ move, Changed unit place
          (String.ofList (front ++ (last.text.toList ++ (c :: more ++ back)))) move
          (lead ++ last :: added) trail := by
  obtain ⟨before, behind, hsite⟩ := exists_fieldSite hfield
  obtain ⟨front, back, hsource, hposition, hinsert⟩ := tokensOf_insert_field h hsite hsplit
  refine ⟨front, back, hsource, hposition, fun c more added hc hline hplain hgives ↦ ?_⟩
  obtain ⟨move, stop, htokens, hbefore⟩ := hinsert c more added hc hline hplain hgives
  refine ⟨move, fun other hother ↦ ?_, fun refusal hrefused ↦ ⟨stop, ?_⟩⟩
  · have hunit := hsite.tokens_modify move fun _ ↦ other
    rw [hbefore, hother, List.append_assoc lead, List.cons_append] at hunit
    rw [← hunit] at htokens
    have hchanged : (UnitPhrase.nodes (UnitPhrase.modifyField (Phrase.moved move unit) place
        fun _ ↦ other)).map Definition.ofNode =
        place.modify (fun _ ↦ Field.ofNode other.node) (unit.nodes.map Definition.ofNode) := by
      rw [UnitPhrase.ofNode_modifyField, UnitPhrase.ofNode_moved]
    refine ⟨itemsOf_eq_ok_iff.2 ⟨_, stop, htokens, rfl⟩,
      compile_eq_ok_iff.2 ⟨_, stop, htokens, ?_, hchanged⟩⟩
    rw [verifyNames_eq_ok_iff] at hnames
    rw [verifyNames_eq_ok_iff, hchanged, FieldPlace.modify, BlockPlace.name_modify]
    exact hnames
  · have hstart (rest : List Token) :
        TokenReader.startsWith .identifier (lead ++ last :: rest) = true := by
      have hhead := TokenReader.headed_field.startsWith field []
      rw [List.append_nil, hsplit] at hhead
      cases lead <;> exact hhead
    refine compile_of_refused htokens ?_
    have hinput := hrefused (trail.map (·.moved move) ++ behind.map (·.moved move))
    simp only [List.append_assoc, List.cons_append] at hinput ⊢
    exact hsite.refused (hstart _) hinput

end Inserted

end SchemaLang
