import SchemaLang.Proofs.Tree.Acceptance

/-!
# Readers and the places of tokens

Readers look at the kinds and the texts of tokens only. When the tokens stand at other places, a
reader takes as many of them as before and gives the same tree, or it refuses them where it did, and
the tokens of the tree or of the refusal are the moved ones (`Blind`). So what is said about a list
of tokens is the same wherever they stand, and an error stays at its token (`parseItems_moved`).
-/

namespace SchemaLang

section Nodes

variable (move : Text.Position → Text.Position)

/-- An option with its tokens at other places. -/
def OptionNode.moved (entry : OptionNode) : OptionNode :=
  ⟨entry.key.moved move, entry.value.moved move⟩

/-- Brackets with their size at another place. -/
def ArrayNode.moved (node : ArrayNode) : ArrayNode := ⟨node.size.map (·.moved move)⟩

/-- A field with its tokens at other places. -/
def FieldNode.moved (node : FieldNode) : FieldNode where
  name := node.name.moved move
  optional := node.optional.map (·.moved move)
  type := node.type.moved move
  options := node.options.map (List.map (OptionNode.moved move))
  array := node.array.map (ArrayNode.moved move)
  default := node.default.map (·.moved move)

/-- Parameters or results with their tokens at other places. -/
def ParamsNode.moved : ParamsNode → ParamsNode
  | block fields => block (fields.map (FieldNode.moved move))
  | named type => named (type.moved move)

/-- A method with its tokens at other places. -/
def MethodNode.moved (node : MethodNode) : MethodNode where
  name := node.name.moved move
  options := node.options.map (List.map (OptionNode.moved move))
  params := node.params.moved move
  returns := node.returns.moved move

/-- A schema with its tokens at other places. -/
def SchemaNode.moved (node : SchemaNode) : SchemaNode :=
  ⟨node.name.moved move, node.fields.map (FieldNode.moved move)⟩

/-- A plugin with its tokens at other places. -/
def PluginNode.moved (node : PluginNode) : PluginNode where
  first := node.first.moved move
  more := node.more.map (·.moved move)
  asName := node.asName.map (·.moved move)
  methods := node.methods.map (MethodNode.moved move)

/-- An item with its tokens at other places. -/
def ItemNode.moved : ItemNode → ItemNode
  | schema node => schema (node.moved move)
  | plugin node => plugin (node.moved move)

/-- A refusal with its tokens at other places. -/
def Refusal.moved : Refusal → Refusal
  | unexpected expected remaining => unexpected expected (remaining.map (·.moved move))
  | arraySize number => arraySize (number.moved move)

/-- An error at another place. -/
def SourceError.moved (error : SourceError) : SourceError := ⟨error.problem, move error.position⟩

theorem Refusal.toError_moved (stop : Text.Position) (refusal : Refusal) :
    (refusal.moved move).toError (move stop) = (refusal.toError stop).moved move := by
  cases refusal with
  | unexpected expected remaining => cases remaining <;> rfl
  | arraySize number => rfl

end Nodes

namespace TokenReader

variable {α β : Type} {move : Text.Position → Text.Position}

/-- An answer of a reader with all tokens at other places. -/
def movedAnswer (move : Text.Position → Text.Position) (value : α → α) :
    Except Refusal (α × List Token) → Except Refusal (α × List Token)
  | .ok (taken, rest) => .ok (value taken, rest.map (·.moved move))
  | .error refusal => .error (refusal.moved move)

/-- A reader does not see where tokens stand: for moved tokens it gives the moved answer. -/
def Blind (move : Text.Position → Text.Position) (reader : TokenReader α) (value : α → α) : Prop :=
  ∀ input, reader (input.map (·.moved move)) = movedAnswer move value (reader input)

/-! ## How readers are combined -/

theorem startsWith_moved (kind : TokenKind) (input : List Token) :
    startsWith kind (input.map (·.moved move)) = startsWith kind input := by
  cases input <;> rfl

theorem blind_take (kind : TokenKind) (expected : Expectation) :
    Blind move (take kind expected) (Token.moved move) := by
  intro input
  cases input with
  | nil => rfl
  | cons token rest =>
    have hkind : (token.moved move).kind = token.kind := rfl
    rw [List.map_cons, take, take, hkind]
    split <;> rfl

theorem blind_literal (expected : Expectation) :
    Blind move (literal expected) (Token.moved move) := by
  intro input
  cases input with
  | nil => rfl
  | cons token rest =>
    have hkind : (token.moved move).kind = token.kind := rfl
    rw [List.map_cons, literal, literal, hkind]
    split <;> rfl

theorem takeIf_moved (kind : TokenKind) (input : List Token) :
    takeIf kind (input.map (·.moved move)) =
      ((takeIf kind input).1.map (·.moved move), (takeIf kind input).2.map (·.moved move)) := by
  cases input with
  | nil => rfl
  | cons token rest =>
    have hkind : (token.moved move).kind = token.kind := rfl
    rw [List.map_cons, takeIf, takeIf, hkind]
    split <;> rfl

section Combinators

variable {reader : TokenReader α} {value : α → α} {input : List Token}

/-- What follows a reader goes on behind the moved answer, or passes the moved refusal on. -/
theorem Blind.bind (h : Blind move reader value)
    {next further : α × List Token → Except Refusal (β × List Token)} {result : β → β}
    (hnext : ∀ taken rest, further (value taken, rest.map (·.moved move)) =
      movedAnswer move result (next (taken, rest))) :
    (reader (input.map (·.moved move)) >>= further) =
      movedAnswer move result (reader input >>= next) := by
  rw [h input]
  cases reader input with
  | error refusal => rfl
  | ok answer => exact hnext answer.1 answer.2

theorem Blind.behind (h : Blind move reader value) (kind : TokenKind) (expected : Expectation) :
    Blind move (TokenReader.behind kind expected reader) value := by
  intro input
  apply (blind_take kind expected).bind
  intro mark rest
  exact h rest

theorem Blind.map (h : Blind move reader value) (f : α → β) {result : β → β}
    (hf : ∀ taken, result (f taken) = f (value taken)) :
    Blind move (fun tokens ↦ (reader tokens).map fun answer ↦ (f answer.1, answer.2)) result := by
  intro input
  dsimp only
  rw [h input]
  cases reader input with
  | error refusal => rfl
  | ok answer =>
    obtain ⟨taken, rest⟩ := answer
    exact congrArg (fun taken ↦ Except.ok (taken, rest.map (·.moved move))) (hf taken).symm

theorem Blind.optional (h : Blind move reader value) (kind : TokenKind) :
    Blind move (TokenReader.optional kind reader) (Option.map value) := by
  have hsome : Blind move _ (Option.map value) := h.map some fun taken ↦ rfl
  intro input
  unfold TokenReader.optional
  rw [startsWith_moved]
  split
  · exact hsome input
  · rfl

theorem Blind.many (h : Blind move reader value) (kind : TokenKind) :
    Blind move (TokenReader.many kind reader) (List.map value) := by
  intro input
  fun_induction TokenReader.many kind reader input with
  | case1 input hstart refusal hread =>
    rw [TokenReader.many, startsWith_moved, if_pos hstart, h input, hread]
    rfl
  | case2 input hstart taken rest hread hlength ih =>
    rw [TokenReader.many, startsWith_moved, if_pos hstart, h input, hread]
    dsimp only [movedAnswer]
    rw [List.length_map, List.length_map, if_pos hlength, ih]
    cases TokenReader.many kind reader rest <;> rfl
  | case3 input hstart taken rest hread hlength =>
    rw [TokenReader.many, startsWith_moved, if_pos hstart, h input, hread]
    dsimp only [movedAnswer]
    rw [List.length_map, List.length_map, if_neg hlength]
    rfl
  | case4 input hstart =>
    rw [TokenReader.many, startsWith_moved, if_neg hstart]
    rfl

end Combinators

/-! ## The readers of the grammar -/

variable (move)

theorem blind_optionEntry : Blind move optionEntry (OptionNode.moved move) := by
  intro input
  apply (blind_take _ _).bind
  intro key rest
  apply (blind_take _ _).bind
  intro equals rest
  apply (blind_literal _).bind
  intro value rest
  rfl

theorem blind_furtherOption : Blind move furtherOption (OptionNode.moved move) :=
  (blind_optionEntry move).behind _ _

theorem blind_options : Blind move options (List.map (OptionNode.moved move)) := by
  intro input
  apply (blind_take _ _).bind
  intro opening rest
  dsimp only
  rw [startsWith_moved]
  split
  · apply (blind_take _ _).bind
    intro closing rest
    rfl
  · apply (blind_optionEntry move).bind
    intro first rest
    apply ((blind_furtherOption move).many _).bind
    intro more rest
    apply (blind_take _ _).bind
    intro closing rest
    rfl

theorem blind_array : Blind move array (ArrayNode.moved move) := by
  intro input
  apply (blind_take _ _).bind
  intro opening rest
  dsimp only
  rw [takeIf_moved]
  obtain ⟨number, rest⟩ := takeIf .numberLiteral rest
  cases number with
  | none =>
    apply (blind_take _ _).bind
    intro closing rest
    rfl
  | some number =>
    have htext : (number.moved move).text = number.text := rfl
    dsimp only [Option.map_some]
    rw [htext]
    split
    · apply (blind_take _ _).bind
      intro closing rest
      rfl
    · rfl

theorem blind_defaultValue : Blind move defaultValue (Token.moved move) :=
  (blind_literal _).behind _ _

theorem blind_field : Blind move field (FieldNode.moved move) := by
  intro input
  apply (blind_take _ _).bind
  intro name rest
  dsimp only
  rw [takeIf_moved]
  obtain ⟨mark, rest⟩ := takeIf .questionMark rest
  apply (blind_take _ _).bind
  intro type rest
  apply ((blind_options move).optional _).bind
  intro options rest
  apply ((blind_array move).optional _).bind
  intro array rest
  apply ((blind_defaultValue move).optional _).bind
  intro default rest
  rfl

theorem blind_fieldBlock : Blind move fieldBlock (List.map (FieldNode.moved move)) := by
  intro input
  apply (blind_take _ _).bind
  intro opening rest
  apply ((blind_field move).many _).bind
  intro fields rest
  apply (blind_take _ _).bind
  intro closing rest
  rfl

theorem blind_params (expected : Expectation) :
    Blind move (params expected) (ParamsNode.moved move) := by
  have hblock : Blind move _ (ParamsNode.moved move) :=
    (blind_fieldBlock move).map ParamsNode.block fun fields ↦ rfl
  have hnamed : Blind move _ (ParamsNode.moved move) :=
    (blind_take .identifier expected).map ParamsNode.named fun type ↦ rfl
  intro input
  unfold params
  rw [startsWith_moved]
  split
  · exact hblock input
  · exact hnamed input

theorem blind_returns : Blind move TokenReader.returns (ParamsNode.moved move) :=
  (blind_params move _).behind _ _

theorem blind_method : Blind move method (MethodNode.moved move) := by
  intro input
  apply (blind_take _ _).bind
  intro word rest
  apply (blind_take _ _).bind
  intro name rest
  apply ((blind_options move).optional _).bind
  intro options rest
  dsimp only
  rw [startsWith_moved]
  split
  · apply (blind_returns move).bind
    intro results rest
    apply (blind_params move _).bind
    intro parameters rest
    rfl
  · apply (blind_params move _).bind
    intro parameters rest
    apply (blind_returns move).bind
    intro results rest
    rfl

theorem blind_furtherSegment : Blind move furtherSegment (Token.moved move) :=
  (blind_take _ _).behind _ _

theorem blind_asName : Blind move TokenReader.asName (Token.moved move) :=
  (blind_take _ _).behind _ _

theorem blind_schema : Blind move TokenReader.schema (SchemaNode.moved move) := by
  intro input
  apply (blind_take _ _).bind
  intro word rest
  apply (blind_take _ _).bind
  intro name rest
  apply (blind_fieldBlock move).bind
  intro fields rest
  rfl

theorem blind_plugin : Blind move TokenReader.plugin (PluginNode.moved move) := by
  intro input
  apply (blind_take _ _).bind
  intro word rest
  apply (blind_take _ _).bind
  intro first rest
  apply ((blind_furtherSegment move).many _).bind
  intro more rest
  apply ((blind_asName move).optional _).bind
  intro asName rest
  apply (blind_take _ _).bind
  intro opening rest
  apply ((blind_method move).many _).bind
  intro methods rest
  apply (blind_take _ _).bind
  intro closing rest
  rfl

theorem blind_item : Blind move item (ItemNode.moved move) := by
  have hschema : Blind move _ (ItemNode.moved move) :=
    (blind_schema move).map ItemNode.schema fun node ↦ rfl
  have hplugin : Blind move _ (ItemNode.moved move) :=
    (blind_plugin move).map ItemNode.plugin fun node ↦ rfl
  intro input
  unfold item
  rw [startsWith_moved, startsWith_moved]
  split
  · exact hschema input
  · split
    · exact hplugin input
    · rfl

/-- The items of moved tokens are the moved items, or their refusal is the moved one. -/
theorem items_moved (input : List Token) :
    items (input.map (·.moved move)) = match items input with
      | .ok nodes => .ok (nodes.map (ItemNode.moved move))
      | .error refusal => .error (refusal.moved move) := by
  fun_induction items input with
  | case1 => rw [List.map_nil, items, if_pos rfl]; rfl
  | case2 input hne refusal hitem =>
    have hmoved : input.map (Token.moved move) ≠ [] := mt List.map_eq_nil_iff.1 hne
    rw [items, if_neg hmoved, blind_item move input, hitem]
    rfl
  | case3 input hne node rest hitem hlength ih =>
    have hmoved : input.map (Token.moved move) ≠ [] := mt List.map_eq_nil_iff.1 hne
    rw [items, if_neg hmoved, blind_item move input, hitem]
    dsimp only [movedAnswer]
    rw [List.length_map, List.length_map, if_pos hlength, ih]
    cases items rest <;> rfl
  | case4 input hne node rest hitem hlength =>
    have hmoved : input.map (Token.moved move) ≠ [] := mt List.map_eq_nil_iff.1 hne
    rw [items, if_neg hmoved, blind_item move input, hitem]
    dsimp only [movedAnswer]
    rw [List.length_map, List.length_map, if_neg hlength]
    rfl

end TokenReader

/-! ## Lists with an end of the input -/

variable (move : Text.Position → Text.Position)

theorem Terminated.moved {input : List Token} (h : Terminated input) :
    Terminated (input.map (·.moved move)) := by
  obtain ⟨last, hlast, hkind⟩ := h
  refine ⟨last.moved move, ?_, hkind⟩
  rw [List.getLast?_map, hlast, Option.map_some]

/-- Terminated tokens at other places give the moved items, or the error at its moved token. -/
theorem parseItems_moved {input : List Token} (h : Terminated input) :
    parseItems (input.map (·.moved move)) = match parseItems input with
      | .ok nodes => .ok (nodes.map (ItemNode.moved move))
      | .error error => .error (error.moved move) := by
  have hbefore : beforeEnd (input.map (·.moved move)) = (beforeEnd input).map (·.moved move) := by
    rw [beforeEnd, List.takeWhile_map, beforeEnd]
    rfl
  have hbehind : (input.map (·.moved move)).dropWhile (·.kind ≠ .endOfInput) =
      (input.dropWhile (·.kind ≠ .endOfInput)).map (·.moved move) := by
    rw [List.dropWhile_map]
    rfl
  obtain ⟨stop, behind, hstop, -⟩ := h.exists_stop
  rw [parseItems_of_terminated (h.moved move), parseItems_of_terminated h, hbefore, hbehind, hstop,
    TokenReader.items_moved]
  cases TokenReader.items (beforeEnd input) with
  | ok nodes => rfl
  | error refusal => exact congrArg Except.error (refusal.toError_moved move stop.position)

end SchemaLang
