import Mathlib.Data.List.TakeDrop
import Mathlib.Data.List.TakeWhile
import SchemaLang.Proofs.Tree.Rules
import SchemaLang.Proofs.Tree.Written

/-!
# What is accepted

A list of tokens that ends with the end of the input is accepted exactly when the tokens before the
first end of the input are those of a unit of the grammar. The unit is unique: its trees are the
answer of the reader, and a phrase is determined by its tree and its tokens (`Determined`), since
the tree tells optional and repeated parts apart and the first token tells the two orders of a
method apart.
-/

namespace SchemaLang

open Phrase TokenReader

/-! ## A phrase is determined by its tree and its tokens -/

/-- Two phrases with one tree that start the same tokens are the same phrase. -/
structure Determined {δ ν : Type} [Phrase δ] (node : δ → ν) : Prop where
  cancel : ∀ {p q : δ} {rest behind : List Token}, node p = node q →
    tokens p ++ rest = tokens q ++ behind → p = q ∧ rest = behind

section Combined

variable {δ ε ν : Type} [Phrase δ] [Phrase ε]

theorem terminal_cancel {kind : TokenKind} {p q : Terminal kind} {rest behind : List Token}
    (h : tokens p ++ rest = tokens q ++ behind) : p = q ∧ rest = behind :=
  ⟨Subtype.ext (List.cons.inj h).1, (List.cons.inj h).2⟩

theorem literal_cancel {p q : LiteralTerminal} {rest behind : List Token}
    (h : tokens p ++ rest = tokens q ++ behind) : p = q ∧ rest = behind :=
  ⟨Subtype.ext (List.cons.inj h).1, (List.cons.inj h).2⟩

theorem determined_terminal {kind : TokenKind} (node : Terminal kind → ν) : Determined node where
  cancel _ h := terminal_cancel h

theorem determined_size (node : SizeTerminal → ν) : Determined node where
  cancel _ h := ⟨Subtype.ext (List.cons.inj h).1, (List.cons.inj h).2⟩

/-- The tree of the second phrase is enough for a pair that starts with a single token. -/
theorem Determined.pair {kind : TokenKind} {node : ε → ν} (hnode : Determined node) :
    Determined (fun pair : Terminal kind × ε ↦ node pair.2) where
  cancel {p q rest behind} htree h := by
    simp only [tokens, List.append_assoc] at h
    obtain ⟨hfirst, hbehind⟩ := terminal_cancel h
    obtain ⟨hsecond, hrest⟩ := hnode.cancel htree hbehind
    exact ⟨Prod.ext hfirst hsecond, hrest⟩

theorem Determined.option {node : δ → ν} (hnode : Determined node) :
    Determined (Option.map node) where
  cancel {p q rest behind} htree h := by
    cases p <;> cases q <;>
      simp only [Option.map_none, Option.map_some, reduceCtorEq, Option.some.injEq] at htree
    case none.none => exact ⟨rfl, h⟩
    case some.some p q =>
      obtain ⟨rfl, hrest⟩ := hnode.cancel htree h
      exact ⟨rfl, hrest⟩

theorem Determined.list {node : δ → ν} (hnode : Determined node) :
    Determined (List.map node) where
  cancel {p q rest behind} htree h := by
    induction p generalizing q with
    | nil =>
      obtain rfl := List.map_eq_nil_iff.1 htree.symm
      exact ⟨rfl, h⟩
    | cons p ps ih =>
      obtain ⟨q, qs, rfl, hfirst, hmore⟩ := List.map_eq_cons_iff.1 htree.symm
      rw [tokens_cons, tokens_cons, List.append_assoc, List.append_assoc] at h
      obtain ⟨rfl, hbehind⟩ := hnode.cancel hfirst.symm h
      obtain ⟨rfl, hrest⟩ := ih hmore.symm hbehind
      exact ⟨rfl, hrest⟩

end Combined

theorem determined_option : Determined OptionPhrase.node where
  cancel {p q rest behind} _ h := by
    obtain ⟨key, equals, value⟩ := p
    obtain ⟨key', equals', value'⟩ := q
    obtain ⟨rfl, hequals⟩ := terminal_cancel h
    obtain ⟨rfl, hvalue⟩ := terminal_cancel hequals
    obtain ⟨rfl, hrest⟩ := literal_cancel hvalue
    exact ⟨rfl, hrest⟩

theorem determined_options : Determined OptionsPhrase.nodes where
  cancel {p q rest behind} htree h := by
    obtain ⟨opening, entries, closing⟩ := p
    obtain ⟨opening', entries', closing'⟩ := q
    rw [options_append, options_append] at h
    obtain ⟨rfl, hentries⟩ := terminal_cancel h
    have hclosing : entries = entries' ∧
        tokens closing ++ rest = tokens closing' ++ behind := by
      rcases entries with _ | ⟨first, more⟩ <;> rcases entries' with _ | ⟨first', more'⟩ <;>
        simp only [OptionsPhrase.nodes, reduceCtorEq, List.cons.injEq] at htree
      case none.none => exact ⟨rfl, hentries⟩
      case some.some =>
        simp only [tokens_some, tokens_pair, List.append_assoc] at hentries
        obtain ⟨rfl, hmore⟩ := determined_option.cancel htree.1 hentries
        obtain ⟨rfl, hclosing⟩ := determined_option.pair.list.cancel htree.2 hmore
        exact ⟨rfl, hclosing⟩
    obtain ⟨rfl, hclosing⟩ := hclosing
    obtain ⟨rfl, hrest⟩ := terminal_cancel hclosing
    exact ⟨rfl, hrest⟩

theorem determined_array : Determined ArrayPhrase.node where
  cancel {p q rest behind} htree h := by
    obtain ⟨opening, size, closing⟩ := p
    obtain ⟨opening', size', closing'⟩ := q
    rw [array_append, array_append] at h
    obtain ⟨rfl, hsize⟩ := terminal_cancel h
    obtain ⟨rfl, hclosing⟩ := (determined_size _).option.cancel (ArrayNode.mk.inj htree) hsize
    obtain ⟨rfl, hrest⟩ := terminal_cancel hclosing
    exact ⟨rfl, hrest⟩

theorem determined_default : Determined (fun p : DefaultPhrase ↦ p.value.1) where
  cancel {p q rest behind} _ h := by
    obtain ⟨equals, value⟩ := p
    obtain ⟨equals', value'⟩ := q
    obtain ⟨rfl, hvalue⟩ := terminal_cancel h
    obtain ⟨rfl, hrest⟩ := literal_cancel hvalue
    exact ⟨rfl, hrest⟩

theorem determined_field : Determined FieldPhrase.node where
  cancel {p q rest behind} htree h := by
    obtain ⟨name, optional, type, options, array, default⟩ := p
    obtain ⟨name', optional', type', options', array', default'⟩ := q
    obtain ⟨-, htreeOptional, -, htreeOptions, htreeArray, htreeDefault⟩ := FieldNode.mk.inj htree
    rw [field_append, field_append] at h
    obtain ⟨rfl, hoptional⟩ := terminal_cancel h
    obtain ⟨rfl, htype⟩ := (determined_terminal _).option.cancel htreeOptional hoptional
    obtain ⟨rfl, hoptions⟩ := terminal_cancel htype
    obtain ⟨rfl, harray⟩ := determined_options.option.cancel htreeOptions hoptions
    obtain ⟨rfl, hdefault⟩ := determined_array.option.cancel htreeArray harray
    obtain ⟨rfl, hrest⟩ := determined_default.option.cancel htreeDefault hdefault
    exact ⟨rfl, hrest⟩

theorem determined_block : Determined BlockPhrase.nodes where
  cancel {p q rest behind} htree h := by
    obtain ⟨opening, fields, closing⟩ := p
    obtain ⟨opening', fields', closing'⟩ := q
    rw [block_append, block_append] at h
    obtain ⟨rfl, hfields⟩ := terminal_cancel h
    obtain ⟨rfl, hclosing⟩ := determined_field.list.cancel htree hfields
    obtain ⟨rfl, hrest⟩ := terminal_cancel hclosing
    exact ⟨rfl, hrest⟩

theorem determined_params : Determined ParamsPhrase.node where
  cancel {p q rest behind} htree h := by
    cases p <;> cases q <;>
      simp only [ParamsPhrase.node, ParamsNode.block.injEq, reduceCtorEq] at htree
    case block.block p q =>
      obtain ⟨rfl, hrest⟩ := determined_block.cancel htree h
      exact ⟨rfl, hrest⟩
    case named.named p q =>
      obtain ⟨rfl, hrest⟩ := terminal_cancel h
      exact ⟨rfl, hrest⟩

theorem determined_returns : Determined (fun p : ReturnsPhrase ↦ p.results.node) where
  cancel {p q rest behind} htree h := by
    obtain ⟨word, results⟩ := p
    obtain ⟨word', results'⟩ := q
    obtain ⟨rfl, hresults⟩ := terminal_cancel h
    obtain ⟨rfl, hrest⟩ := determined_params.cancel htree hresults
    exact ⟨rfl, hrest⟩

/-- Parameters and the word `returns` do not start the same tokens. -/
theorem params_ne_returns {parameters : ParamsPhrase} {returns : ReturnsPhrase}
    {rest behind : List Token} : tokens parameters ++ rest ≠ tokens returns ++ behind := by
  intro h
  have hparams : StartsWithNone [.returns] (tokens parameters ++ rest) :=
    startsWithNone_params parameters rest (by decide) (by decide)
  have hreturns := headed_returns.startsWith returns behind
  rw [← h, hparams.head] at hreturns
  cases hreturns

theorem determined_signature :
    Determined (fun p : SignaturePhrase ↦ (p.parameters.node, p.returns.results.node)) where
  cancel {p q rest behind} htree h := by
    obtain ⟨htreeParameters, htreeReturns⟩ := Prod.mk.inj htree
    cases p with
    | paramsFirst parameters returns =>
      rw [paramsFirst_append] at h
      cases q with
      | paramsFirst parameters' returns' =>
        rw [paramsFirst_append] at h
        obtain ⟨rfl, hreturns⟩ := determined_params.cancel htreeParameters h
        obtain ⟨rfl, hrest⟩ := determined_returns.cancel htreeReturns hreturns
        exact ⟨rfl, hrest⟩
      | returnsFirst returns' parameters' =>
        rw [returnsFirst_append] at h
        exact absurd h params_ne_returns
    | returnsFirst returns parameters =>
      rw [returnsFirst_append] at h
      cases q with
      | paramsFirst parameters' returns' =>
        rw [paramsFirst_append] at h
        exact absurd h.symm params_ne_returns
      | returnsFirst returns' parameters' =>
        rw [returnsFirst_append] at h
        obtain ⟨rfl, hparameters⟩ := determined_returns.cancel htreeReturns h
        obtain ⟨rfl, hrest⟩ := determined_params.cancel htreeParameters hparameters
        exact ⟨rfl, hrest⟩

theorem determined_method : Determined MethodPhrase.node where
  cancel {p q rest behind} htree h := by
    obtain ⟨word, name, options, signature⟩ := p
    obtain ⟨word', name', options', signature'⟩ := q
    obtain ⟨-, htreeOptions, htreeParameters, htreeReturns⟩ := MethodNode.mk.inj htree
    rw [method_append, method_append] at h
    obtain ⟨rfl, hname⟩ := terminal_cancel h
    obtain ⟨rfl, hoptions⟩ := terminal_cancel hname
    obtain ⟨rfl, hsignature⟩ := determined_options.option.cancel htreeOptions hoptions
    obtain ⟨rfl, hrest⟩ :=
      determined_signature.cancel (Prod.ext htreeParameters htreeReturns) hsignature
    exact ⟨rfl, hrest⟩

theorem determined_schema : Determined SchemaPhrase.node where
  cancel {p q rest behind} htree h := by
    obtain ⟨word, name, block⟩ := p
    obtain ⟨word', name', block'⟩ := q
    obtain ⟨rfl, hname⟩ := terminal_cancel h
    obtain ⟨rfl, hblock⟩ := terminal_cancel hname
    obtain ⟨rfl, hrest⟩ := determined_block.cancel (SchemaNode.mk.inj htree).2 hblock
    exact ⟨rfl, hrest⟩

theorem determined_plugin : Determined PluginPhrase.node where
  cancel {p q rest behind} htree h := by
    obtain ⟨word, first, more, asName, opening, methods, closing⟩ := p
    obtain ⟨word', first', more', asName', opening', methods', closing'⟩ := q
    obtain ⟨-, htreeMore, htreeAs, htreeMethods⟩ := PluginNode.mk.inj htree
    rw [plugin_append, plugin_append] at h
    obtain ⟨rfl, hfirst⟩ := terminal_cancel h
    obtain ⟨rfl, hmore⟩ := terminal_cancel hfirst
    obtain ⟨rfl, has⟩ := (determined_terminal _).pair.list.cancel htreeMore hmore
    obtain ⟨rfl, hopening⟩ := (determined_terminal _).pair.option.cancel htreeAs has
    obtain ⟨rfl, hmethods⟩ := terminal_cancel hopening
    obtain ⟨rfl, hclosing⟩ := determined_method.list.cancel htreeMethods hmethods
    obtain ⟨rfl, hrest⟩ := terminal_cancel hclosing
    exact ⟨rfl, hrest⟩

theorem determined_item : Determined ItemPhrase.node where
  cancel {p q rest behind} htree h := by
    cases p <;> cases q <;>
      simp only [ItemPhrase.node, ItemNode.schema.injEq, ItemNode.plugin.injEq,
        reduceCtorEq] at htree
    case schema.schema p q =>
      obtain ⟨rfl, hrest⟩ := determined_schema.cancel htree h
      exact ⟨rfl, hrest⟩
    case plugin.plugin p q =>
      obtain ⟨rfl, hrest⟩ := determined_plugin.cancel htree h
      exact ⟨rfl, hrest⟩

/-- No two units are written with the same tokens. -/
theorem unit_tokens_injective : Function.Injective (tokens : UnitPhrase → List Token) := by
  intro p q h
  have hread : items (tokens p) = items (tokens q) := congrArg items h
  rw [items_unit, items_unit, Except.ok.injEq] at hread
  have happend : tokens p ++ [] = tokens q ++ [] := by
    rw [List.append_nil, List.append_nil, h]
  exact (determined_item.list.cancel hread happend).1

/-! ## Lists with an end of the input -/

/-- The tokens before the first end of the input. -/
def beforeEnd (input : List Token) : List Token := input.takeWhile (·.kind ≠ .endOfInput)

/-- The tokens up to the first end of the input. -/
def upToEnd (input : List Token) : List Token :=
  beforeEnd input ++ (input.dropWhile (·.kind ≠ .endOfInput)).take 1

/-- Tokens whose last one is the end of the input. -/
def Terminated (input : List Token) : Prop :=
  ∃ last, input.getLast? = some last ∧ last.kind = .endOfInput

theorem Terminated.startsWith_reverse {input : List Token} (h : Terminated input) :
    startsWith .endOfInput input.reverse = true := by
  obtain ⟨last, hlast, hkind⟩ := h
  rw [startsWith, List.head?_reverse, hlast, Option.any_some, decide_eq_true_eq]
  exact hkind

/-- The answer for terminated tokens: that for the tokens before the first end of the input. -/
theorem parseItems_of_terminated {input : List Token} (h : Terminated input) :
    parseItems input = match items (beforeEnd input) with
      | .ok nodes => .ok nodes
      | .error refusal => .error (refusal.toError
          (((input.dropWhile (·.kind ≠ .endOfInput)).head?.map (·.position)).getD .start)) := by
  rw [parseItems, if_pos h.startsWith_reverse, List.span_eq_takeWhile_dropWhile]
  rfl

theorem parseItems_eq_ok_iff {input : List Token} (h : Terminated input)
    {nodes : List ItemNode} :
    parseItems input = .ok nodes ↔ items (beforeEnd input) = .ok nodes := by
  rw [parseItems_of_terminated h]
  cases items (beforeEnd input) <;> simp

theorem kind_of_mem_beforeEnd {input : List Token} {token : Token} (h : token ∈ beforeEnd input) :
    token.kind ≠ .endOfInput := by
  have := List.mem_takeWhile_imp h
  simpa using this

theorem Terminated.exists_stop {input : List Token} (h : Terminated input) :
    ∃ stop behind, input.dropWhile (·.kind ≠ .endOfInput) = stop :: behind ∧
      stop.kind = .endOfInput := by
  obtain ⟨last, hlast, hkind⟩ := h
  cases hdrop : input.dropWhile (·.kind ≠ .endOfInput) with
  | nil =>
    have hall := List.dropWhile_eq_nil_iff.1 hdrop last (List.mem_of_getLast? hlast)
    simp [hkind] at hall
  | cons stop behind =>
    have hhead := List.head?_dropWhile_not (fun token : Token ↦ decide (token.kind ≠ .endOfInput))
      input
    rw [hdrop] at hhead
    exact ⟨stop, behind, rfl, by simpa using hhead⟩

/-- The answer for tokens, the end of the input and what is behind it. -/
theorem parseItems_append_stop {body behind : List Token} {stop : Token}
    (hbody : ∀ token ∈ body, token.kind ≠ .endOfInput) (hstop : stop.kind = .endOfInput)
    (h : Terminated (body ++ stop :: behind)) :
    parseItems (body ++ stop :: behind) = match items body with
      | .ok nodes => .ok nodes
      | .error refusal => .error (refusal.toError stop.position) := by
  have hinner (token : Token) (htoken : token ∈ body) : decide (token.kind ≠ .endOfInput) = true :=
    decide_eq_true (hbody token htoken)
  have hbefore : beforeEnd (body ++ stop :: behind) = body := by
    rw [beforeEnd, List.takeWhile_append_of_pos hinner]
    simp [hstop]
  have hdrop : (body ++ stop :: behind).dropWhile (·.kind ≠ .endOfInput) = stop :: behind := by
    rw [List.dropWhile_append_of_pos hinner]
    simp [hstop]
  rw [parseItems_of_terminated h, hbefore, hdrop]
  rfl

/-- The tokens before the first end of the input can be told from those up to it. -/
theorem beforeEnd_upToEnd (input : List Token) : beforeEnd (upToEnd input) = beforeEnd input := by
  have hends : beforeEnd ((input.dropWhile (·.kind ≠ .endOfInput)).take 1) = [] := by
    have hhead := List.head?_dropWhile_not (fun token : Token ↦ decide (token.kind ≠ .endOfInput))
      input
    cases hrest : input.dropWhile (·.kind ≠ .endOfInput) with
    | nil => rfl
    | cons token rest =>
      rw [hrest] at hhead
      simp only [List.head?_cons] at hhead
      rw [List.take_succ_cons, beforeEnd, List.takeWhile_cons, hhead]
      rfl
  rw [upToEnd, beforeEnd, List.takeWhile_append_of_pos]
  · rw [← beforeEnd, hends, List.append_nil]
  · intro token htoken
    exact decide_eq_true (kind_of_mem_beforeEnd htoken)

/-- Only the tokens up to the first end of the input count. -/
theorem parseItems_congr {input other : List Token} (hinput : Terminated input)
    (hother : Terminated other) (h : upToEnd input = upToEnd other) :
    parseItems input = parseItems other := by
  have hbefore : beforeEnd input = beforeEnd other := by
    rw [← beforeEnd_upToEnd input, h, beforeEnd_upToEnd]
  have hend : (input.dropWhile (·.kind ≠ .endOfInput)).head? =
      (other.dropWhile (·.kind ≠ .endOfInput)).head? := by
    have hsplit := List.append_inj_right h (congrArg List.length hbefore)
    simpa only [List.head?_take, Nat.one_ne_zero, if_false] using congrArg List.head? hsplit
  rw [parseItems_of_terminated hinput, parseItems_of_terminated hother, hbefore, hend]

/--
Terminated tokens are accepted exactly when those before the first end of the input are written by
a unit of the grammar, and the answer is its trees. There is at most one such unit, the trees
written back are these tokens in order, and tokens behind the first end of the input never count.
-/
theorem parseItems_reads_unit (input : List Token) (hinput : Terminated input) :
    (∀ nodes, parseItems input = .ok nodes ↔
      ∃ unit : UnitPhrase, tokens unit = beforeEnd input ∧ unit.nodes = nodes) ∧
    (∀ unit other : UnitPhrase, tokens unit = beforeEnd input → tokens other = beforeEnd input →
      unit = other) ∧
    (∀ nodes, parseItems input = .ok nodes → WrittenAs nodes (beforeEnd input)) ∧
    (∀ other, Terminated other → upToEnd other = upToEnd input →
      parseItems other = parseItems input) := by
  have hunit (nodes : List ItemNode) : parseItems input = .ok nodes ↔
      ∃ unit : UnitPhrase, tokens unit = beforeEnd input ∧ unit.nodes = nodes := by
    rw [parseItems_eq_ok_iff hinput, items_eq_ok_iff]
    exact exists_congr fun unit ↦ and_comm
  refine ⟨hunit, ?_, ?_, ?_⟩
  · intro unit other hfirst hsecond
    exact unit_tokens_injective (hfirst.trans hsecond.symm)
  · intro nodes hnodes
    obtain ⟨unit, htokens, rfl⟩ := (hunit nodes).1 hnodes
    rw [← htokens]
    exact unit.writtenAs
  · intro other hother h
    exact parseItems_congr hother hinput h

/-- A method with its results first, and a token behind the first end of the input. -/
theorem parseItems_reads_unit_behind_end :
    let at' := fun column ↦ (⟨1, column⟩ : Text.Position)
    let input : List Token := [⟨.plugin, "plugin", at' 1⟩, ⟨.identifier, "p", at' 8⟩,
      ⟨.leftBrace, "\x7b", at' 10⟩, ⟨.method, "method", at' 12⟩, ⟨.identifier, "m", at' 19⟩,
      ⟨.returns, "returns", at' 21⟩, ⟨.identifier, "A", at' 29⟩, ⟨.leftBrace, "\x7b", at' 31⟩,
      ⟨.rightBrace, "\x7d", at' 32⟩, ⟨.rightBrace, "\x7d", at' 34⟩, ⟨.endOfInput, "", at' 35⟩,
      ⟨.schema, "schema", at' 36⟩, ⟨.endOfInput, "", at' 42⟩]
    Terminated input ∧
      parseItems input = .ok [.plugin ⟨⟨.identifier, "p", at' 8⟩, [], none,
        [⟨⟨.identifier, "m", at' 19⟩, none, .block [], .named ⟨.identifier, "A", at' 29⟩⟩]⟩] := by
  refine ⟨⟨_, rfl, rfl⟩, ((parseItems_reads_unit _ ⟨_, rfl, rfl⟩).1 _).2 ?_⟩
  exact ⟨[.plugin ⟨⟨⟨.plugin, "plugin", ⟨1, 1⟩⟩, rfl⟩, ⟨⟨.identifier, "p", ⟨1, 8⟩⟩, rfl⟩, [], none,
    ⟨⟨.leftBrace, "\x7b", ⟨1, 10⟩⟩, rfl⟩,
    [⟨⟨⟨.method, "method", ⟨1, 12⟩⟩, rfl⟩, ⟨⟨.identifier, "m", ⟨1, 19⟩⟩, rfl⟩, none,
      .returnsFirst
        ⟨⟨⟨.returns, "returns", ⟨1, 21⟩⟩, rfl⟩, .named ⟨⟨.identifier, "A", ⟨1, 29⟩⟩, rfl⟩⟩
        (.block
          ⟨⟨⟨.leftBrace, "\x7b", ⟨1, 31⟩⟩, rfl⟩, [], ⟨⟨.rightBrace, "\x7d", ⟨1, 32⟩⟩, rfl⟩⟩)⟩],
    ⟨⟨.rightBrace, "\x7d", ⟨1, 34⟩⟩, rfl⟩⟩], rfl, rfl⟩

end SchemaLang
