import SchemaLang.Proofs.Tree.Acceptance
import SchemaLang.Proofs.Tree.Lookahead

/-!
# Where errors are

Each reader of the grammar refuses at the first token with which no phrase of its rule goes on. So
the error of a list of tokens is at the first one with which nothing accepted goes on
(`parseItems_stops_early`): what stands before it is the start of accepted tokens, and with it no
list is accepted whatever follows.
-/

namespace SchemaLang

open Phrase TokenReader

namespace TokenReader

/-! ## The readers of the grammar -/

theorem stopsEarly_optionEntry : StopsEarly OptionPhrase optionEntry := by
  refine StopsEarly.mono (δ := Terminal .identifier × Terminal .equals × LiteralTerminal) ?_
    (fun p ↦ ⟨p.1, p.2.1, p.2.2⟩) fun p ↦ rfl
  unfold optionEntry
  apply (stopsEarly_take _ (by decide)).bind
  intro key
  apply (stopsEarly_take _ (by decide)).bind
  intro equals
  exact (stopsEarly_literal _).bind_return _ fun _ _ ↦ rfl

theorem stopsEarly_furtherOption : StopsEarly (Terminal .comma × OptionPhrase) furtherOption :=
  stopsEarly_optionEntry.behind (by decide) _

theorem stopsEarly_options : StopsEarly OptionsPhrase options := by
  refine StopsEarly.mono (δ := Terminal .leftParen ×
      Option (OptionPhrase × List (Terminal .comma × OptionPhrase)) × Terminal .rightParen) ?_
    (fun p ↦ ⟨p.1, p.2.1, p.2.2⟩) fun p ↦ List.append_assoc ..
  unfold options
  apply (stopsEarly_take _ (by decide)).bind
  intro opening
  apply StopsEarly.ite
  · refine StopsEarly.mono (δ := Terminal .rightParen) ?_ (fun closing ↦ (none, closing))
      fun _ ↦ rfl
    exact (stopsEarly_take _ (by decide)).bind_return _ fun _ _ ↦ rfl
  · refine StopsEarly.mono (δ := OptionPhrase × List (Terminal .comma × OptionPhrase) ×
      Terminal .rightParen) ?_ (fun p ↦ (some (p.1, p.2.1), p.2.2)) fun p ↦ List.append_assoc ..
    apply stopsEarly_optionEntry.bind
    intro first
    apply (stopsEarly_furtherOption.many headed_furtherOption).bind
    intro more
    exact (stopsEarly_take _ (by decide)).bind_return _ fun _ _ ↦ rfl

/-- A number between brackets, if there is one. -/
def arraySize : TokenReader (Option Token) := fun tokens =>
  match takeIf .numberLiteral tokens with
  | (none, tokens) => .ok (none, tokens)
  | (some number, tokens) =>
    if isArraySize number.text then .ok (some number, tokens) else .error (.arraySize number)

theorem array_eq : array = fun tokens => do
    let (_, tokens) ← take .leftBracket .openingBracket tokens
    let (size, tokens) ← arraySize tokens
    let (_, tokens) ← take .rightBracket .closingBracket tokens
    return (⟨size⟩, tokens) := by
  funext tokens
  unfold array
  congr 1
  funext answer
  dsimp only
  rw [arraySize]
  rcases takeIf .numberLiteral answer.2 with ⟨_ | number, rest⟩
  · rfl
  · dsimp only
    split <;> rfl

theorem arraySize_of_not_startsWith {input : List Token}
    (h : startsWith .numberLiteral input = false) : arraySize input = .ok (none, input) := by
  have hnone := takeIf_tokens (none : Option (Terminal .numberLiteral)) h
  rw [tokens_none, List.nil_append] at hnone
  rw [arraySize, hnone]
  rfl

theorem arraySize_cons {number : Token} (h : number.kind = .numberLiteral) (rest : List Token) :
    arraySize (number :: rest) =
      if isArraySize number.text then .ok (some number, rest) else .error (.arraySize number) := by
  rw [arraySize, takeIf, if_pos h]

/-- A number that is no array size is refused where it stands. -/
theorem stopsEarly_arraySize : StopsEarly (Option SizeTerminal) arraySize where
  taken {input value rest} h := by
    cases hstart : startsWith .numberLiteral input with
    | false =>
      rw [arraySize_of_not_startsWith hstart] at h
      cases h
      refine ⟨none, rfl, fun _ hmem ↦ absurd hmem List.not_mem_nil, fun other hhead ↦ ?_⟩
      rw [← startsWith_congr hhead] at hstart
      exact arraySize_of_not_startsWith hstart
    | true =>
      obtain ⟨number, behind, rfl, hkind⟩ := exists_cons_of_startsWith hstart
      rw [arraySize_cons hkind] at h
      split at h
      case isFalse => cases h
      case isTrue hsize =>
        cases h
        refine ⟨some ⟨number, hkind, isArraySize_iff.1 hsize⟩, rfl, fun token htoken ↦ ?_,
          fun other _ ↦ ?_⟩
        · rw [List.mem_singleton.1 htoken, hkind]
          decide
        · exact (arraySize_cons hkind other).trans (if_pos hsize)
  refused {input refusal} h := by
    cases hstart : startsWith .numberLiteral input with
    | false =>
      rw [arraySize_of_not_startsWith hstart] at h
      cases h
    | true =>
      obtain ⟨number, behind, rfl, hkind⟩ := exists_cons_of_startsWith hstart
      rw [arraySize_cons hkind] at h
      split at h
      case isTrue => cases h
      case isFalse hsize =>
        cases h
        refine ⟨[], _, rfl, .arraySize behind hkind (Bool.eq_false_iff.2 hsize),
          ⟨none, List.nil_prefix⟩, fun other hhead ↦ ?_⟩
        obtain ⟨more, rfl⟩ := List.head?_eq_some_iff.1 hhead
        exact ⟨_, (arraySize_cons hkind more).trans (if_neg hsize)⟩

theorem stopsEarly_array : StopsEarly ArrayPhrase array := by
  refine StopsEarly.mono (δ := Terminal .leftBracket × Option SizeTerminal ×
      Terminal .rightBracket) ?_ (fun p ↦ ⟨p.1, p.2.1, p.2.2⟩) fun p ↦ List.append_assoc ..
  rw [array_eq]
  apply (stopsEarly_take _ (by decide)).bind
  intro opening
  apply stopsEarly_arraySize.bind
  intro size
  exact (stopsEarly_take _ (by decide)).bind_return _ fun _ _ ↦ rfl

theorem stopsEarly_defaultValue : StopsEarly DefaultPhrase defaultValue :=
  ((stopsEarly_literal _).behind (by decide) _).mono (fun pair ↦ ⟨pair.1, pair.2⟩) fun _ ↦ rfl

/-- A field behind its name and its question mark. -/
def fieldBehind (name : Token) (mark : Option Token) : TokenReader FieldNode := fun tokens => do
  let (type, tokens) ← take .identifier .fieldType tokens
  let (options, tokens) ← optional .leftParen options tokens
  let (array, tokens) ← optional .leftBracket array tokens
  let (default, tokens) ← optional .equals defaultValue tokens
  return (⟨name, mark, type, options, array, default⟩, tokens)

theorem field_eq : field = (fun tokens ↦ do
    let (name, tokens) ← take .identifier .fieldName tokens
    let (mark, tokens) ← (.ok (takeIf .questionMark tokens) :
      Except Refusal (Option Token × List Token))
    fieldBehind name mark tokens) := rfl

theorem stopsEarly_field : StopsEarly FieldPhrase field := by
  refine StopsEarly.mono (δ := Terminal .identifier × Option (Terminal .questionMark) ×
      Terminal .identifier × Option OptionsPhrase × Option ArrayPhrase × Option DefaultPhrase) ?_
    (fun p ↦ ⟨p.1, p.2.1, p.2.2.1, p.2.2.2.1, p.2.2.2.2.1, p.2.2.2.2.2⟩) fun p ↦ ?_
  · rw [field_eq]
    apply (stopsEarly_take _ (by decide)).bind
    intro name
    apply (stopsEarly_takeIf (by decide)).bind
    intro mark
    dsimp only
    unfold fieldBehind
    apply (stopsEarly_take _ (by decide)).bind
    intro type
    apply (stopsEarly_options.optional _).bind
    intro options
    apply (stopsEarly_array.optional _).bind
    intro array
    exact (stopsEarly_defaultValue.optional _).bind_return _ fun _ _ ↦ rfl
  · simp only [tokens, List.append_assoc]

theorem stopsEarly_fieldBlock : StopsEarly BlockPhrase fieldBlock := by
  refine StopsEarly.mono (δ := Terminal .leftBrace × List FieldPhrase × Terminal .rightBrace) ?_
    (fun p ↦ ⟨p.1, p.2.1, p.2.2⟩) fun p ↦ List.append_assoc ..
  unfold fieldBlock
  apply (stopsEarly_take _ (by decide)).bind
  intro opening
  apply (stopsEarly_field.many headed_field).bind
  intro fields
  exact (stopsEarly_take _ (by decide)).bind_return _ fun _ _ ↦ rfl

theorem stopsEarly_params (expected : Expectation) : StopsEarly ParamsPhrase (params expected) := by
  unfold params
  apply StopsEarly.ite
  · exact (stopsEarly_fieldBlock.map ParamsNode.block).mono .block fun _ ↦ rfl
  · exact ((stopsEarly_take _ (by decide)).map ParamsNode.named).mono .named fun _ ↦ rfl

theorem stopsEarly_returns : StopsEarly ReturnsPhrase TokenReader.returns :=
  ((stopsEarly_params _).behind (by decide) _).mono (fun pair ↦ ⟨pair.1, pair.2⟩) fun _ ↦ rfl

theorem stopsEarly_method : StopsEarly MethodPhrase method := by
  refine StopsEarly.mono (δ := Terminal .method × Terminal .identifier × Option OptionsPhrase ×
      SignaturePhrase) ?_ (fun p ↦ ⟨p.1, p.2.1, p.2.2.1, p.2.2.2⟩) fun p ↦ ?_
  · unfold method
    apply (stopsEarly_take _ (by decide)).bind
    intro word
    apply (stopsEarly_take _ (by decide)).bind
    intro name
    apply (stopsEarly_options.optional _).bind
    intro options
    apply StopsEarly.ite
    · refine StopsEarly.mono (δ := ReturnsPhrase × ParamsPhrase) ?_
        (fun p ↦ .returnsFirst p.1 p.2) fun _ ↦ rfl
      apply stopsEarly_returns.bind
      intro results
      exact (stopsEarly_params _).bind_return _ fun _ _ ↦ rfl
    · refine StopsEarly.mono (δ := ParamsPhrase × ReturnsPhrase) ?_
        (fun p ↦ .paramsFirst p.1 p.2) fun _ ↦ rfl
      apply (stopsEarly_params _).bind
      intro parameters
      exact stopsEarly_returns.bind_return _ fun _ _ ↦ rfl
  · simp only [tokens, List.append_assoc]

theorem stopsEarly_furtherSegment :
    StopsEarly (Terminal .dot × Terminal .identifier) furtherSegment :=
  (stopsEarly_take _ (by decide)).behind (by decide) _

theorem stopsEarly_asName : StopsEarly (Terminal .asWord × Terminal .identifier) asName :=
  (stopsEarly_take _ (by decide)).behind (by decide) _

theorem stopsEarly_schema : StopsEarly SchemaPhrase TokenReader.schema := by
  refine StopsEarly.mono (δ := Terminal .schema × Terminal .identifier × BlockPhrase) ?_
    (fun p ↦ ⟨p.1, p.2.1, p.2.2⟩) fun p ↦ rfl
  unfold TokenReader.schema
  apply (stopsEarly_take _ (by decide)).bind
  intro word
  apply (stopsEarly_take _ (by decide)).bind
  intro name
  exact stopsEarly_fieldBlock.bind_return _ fun _ _ ↦ rfl

theorem stopsEarly_plugin : StopsEarly PluginPhrase TokenReader.plugin := by
  refine StopsEarly.mono (δ := Terminal .plugin × Terminal .identifier ×
      List (Terminal .dot × Terminal .identifier) ×
      Option (Terminal .asWord × Terminal .identifier) × Terminal .leftBrace ×
      List MethodPhrase × Terminal .rightBrace) ?_
    (fun p ↦ ⟨p.1, p.2.1, p.2.2.1, p.2.2.2.1, p.2.2.2.2.1, p.2.2.2.2.2.1, p.2.2.2.2.2.2⟩)
    fun p ↦ ?_
  · unfold TokenReader.plugin
    apply (stopsEarly_take _ (by decide)).bind
    intro word
    apply (stopsEarly_take _ (by decide)).bind
    intro first
    apply (stopsEarly_furtherSegment.many headed_furtherSegment).bind
    intro more
    apply (stopsEarly_asName.optional _).bind
    intro asName
    apply (stopsEarly_take _ (by decide)).bind
    intro opening
    apply (stopsEarly_method.many headed_method).bind
    intro methods
    exact (stopsEarly_take _ (by decide)).bind_return _ fun _ _ ↦ rfl
  · simp only [tokens, List.append_assoc]

theorem stopsEarly_item : StopsEarly ItemPhrase item := by
  unfold item
  apply StopsEarly.ite
  · exact (stopsEarly_schema.map ItemNode.schema).mono .schema fun _ ↦ rfl
  · apply StopsEarly.ite
    · exact (stopsEarly_plugin.map ItemNode.plugin).mono .plugin fun _ ↦ rfl
    · exact stopsEarly_fail .definition

/-! ## The items of a source -/

/-- The tokens of items are never the end of the input. -/
theorem inner_of_items {input : List Token} {nodes : List ItemNode} (h : items input = .ok nodes) :
    Inner input := by
  fun_induction items input generalizing nodes with
  | case1 => exact fun _ hmem ↦ absurd hmem List.not_mem_nil
  | case2 => simp at h
  | case3 input hne node rest hitem hlength ih =>
    obtain ⟨more, hmore, -⟩ := map_eq_ok.1 h
    obtain ⟨p, rfl, hinner, -⟩ := stopsEarly_item.taken hitem
    exact List.forall_mem_append.2 ⟨hinner, ih hmore⟩
  | case4 input hne node rest hitem hlength =>
    obtain ⟨p, rfl, -, -⟩ := stopsEarly_item.taken hitem
    have hpos := length_item_pos p
    rw [List.length_append] at hlength
    omega

/-- The tokens before a refusal are the start of a unit, and with the next one all are refused. -/
theorem items_stops_early {input : List Token} {refusal : Refusal}
    (h : items input = .error refusal) :
    ∃ front left, input = front ++ left ∧ RefusedAt left refusal ∧
      (∃ unit : UnitPhrase, front <+: tokens unit) ∧
      ∀ other, other.head? = left.head? → ∃ refusal, items (front ++ other) = .error refusal := by
  fun_induction items input with
  | case1 => simp at h
  | case2 input hne refusal' hitem =>
    cases h
    obtain ⟨front, left, rfl, hleft, ⟨p, hfront⟩, hother⟩ := stopsEarly_item.refused hitem
    refine ⟨front, left, rfl, hleft, ⟨[p], ?_⟩, fun other hhead ↦ ?_⟩
    · rwa [tokens_cons, tokens_nil, List.append_nil]
    · obtain ⟨refusal, hrefusal⟩ := hother other hhead
      have hne' : front ++ other ≠ [] := by
        rw [← List.isSome_head?, head?_append_congr front hhead, List.isSome_head?]
        exact hne
      exact ⟨refusal, by rw [items, if_neg hne', hrefusal]⟩
  | case3 input hne node rest hitem hlength ih =>
    cases hmore : items rest with
    | ok nodes =>
      rw [hmore] at h
      cases h
    | error refusal' =>
      rw [hmore] at h
      cases h
      obtain ⟨p, rfl, -, -⟩ := stopsEarly_item.taken hitem
      obtain ⟨front, left, rfl, hleft, ⟨unit, hfront⟩, hother⟩ := ih hmore
      refine ⟨tokens p ++ front, left, (List.append_assoc ..).symm, hleft, ?_, fun other hhead ↦ ?_⟩
      · exact ⟨p :: unit, (List.prefix_append_right_inj _).2 hfront⟩
      · obtain ⟨refusal, hrefusal⟩ := hother other hhead
        refine ⟨refusal, ?_⟩
        rw [List.append_assoc, items_item_append, hrefusal, map_error]
  | case4 => simp at h

end TokenReader

/-! ## Lists with an end of the input -/

/-- A problem names the token that it is found at; the end of the input has no text. -/
inductive SourceProblem.Names (token : Token) : SourceProblem → Prop
  | unexpected (expected : Expectation) : Names token
      (.unexpected expected (if token.kind = .endOfInput then none else some token.text))
  | arraySize (hkind : token.kind = .numberLiteral)
      (hsize : ¬∃ size, readUnsigned64? token.text = some size ∧ 0 < size) :
      Names token (.arraySize token.text)

/-- A refusal is an error at the next token, or at the end of the input if none is left. -/
theorem toError_of_refusedAt {left behind more : List Token} {stop token : Token}
    (hleft : Inner left) (hstop : stop.kind = .endOfInput)
    (htoken : left ++ stop :: behind = token :: more) {refusal : Refusal}
    (h : RefusedAt left refusal) :
    (refusal.toError stop.position).position = token.position ∧
      (refusal.toError stop.position).problem.Names token := by
  cases h with
  | unexpected expected =>
    cases left with
    | nil =>
      cases htoken
      have hnames : SourceProblem.Names stop _ := .unexpected expected
      rw [if_pos hstop] at hnames
      exact ⟨rfl, hnames⟩
    | cons first left =>
      cases htoken
      have hnames : SourceProblem.Names token _ := .unexpected expected
      rw [if_neg (hleft token List.mem_cons_self)] at hnames
      exact ⟨rfl, hnames⟩
  | arraySize rest hkind hsize =>
    cases htoken
    have hnotSize := Bool.eq_false_iff.1 hsize
    rw [ne_eq, isArraySize_iff] at hnotSize
    exact ⟨rfl, .arraySize hkind hnotSize⟩

theorem terminated_of_parseItems {input : List Token} {nodes : List ItemNode}
    (h : parseItems input = .ok nodes) : Terminated input := by
  unfold parseItems at h
  split at h
  case isTrue hstart =>
    obtain ⟨last, rest, hreverse, hkind⟩ := exists_cons_of_startsWith hstart
    refine ⟨last, ?_, hkind⟩
    rw [← List.head?_reverse, hreverse, List.head?_cons]
  case isFalse => cases h

theorem beforeEnd_append {front : List Token} (h : Inner front) (rest : List Token) :
    beforeEnd (front ++ rest) = front ++ beforeEnd rest :=
  List.takeWhile_append_of_pos fun token htoken ↦ decide_eq_true (h token htoken)

theorem head?_beforeEnd_congr {input other : List Token} (h : other.head? = input.head?) :
    (beforeEnd other).head? = (beforeEnd input).head? := by
  rw [beforeEnd, beforeEnd, List.head?_takeWhile, List.head?_takeWhile, h]

/-- What a unit starts with is the start of accepted tokens. -/
theorem exists_accepted {front : List Token} {unit : UnitPhrase} (h : front <+: tokens unit) :
    ∃ accepted nodes, parseItems accepted = .ok nodes ∧ front <+: accepted := by
  let stop : Token := ⟨.endOfInput, "", .start⟩
  refine ⟨tokens unit ++ [stop], unit.nodes, ?_, h.trans (List.prefix_append _ _)⟩
  have hterminated : Terminated (tokens unit ++ [stop]) := ⟨stop, List.getLast?_concat, rfl⟩
  rw [parseItems_append_stop (inner_of_items (items_unit unit)) rfl hterminated, items_unit]

/--
Terminated tokens that are refused have their error at a token with which all lists are refused, and
the tokens before it are the start of a unit.
-/
theorem exists_stop_of_parseItems {input : List Token} (hinput : Terminated input)
    {error : SourceError} (h : parseItems input = .error error) :
    ∃ front token more, input = front ++ token :: more ∧
      error.position = token.position ∧ error.problem.Names token ∧
      (∃ unit : UnitPhrase, front <+: tokens unit) ∧
      ∀ other, ∃ refusal, items (beforeEnd (front ++ token :: other)) = .error refusal := by
  obtain ⟨stop, behind, hdrop, hstop⟩ := hinput.exists_stop
  have hinner : Inner (beforeEnd input) := fun token ↦ kind_of_mem_beforeEnd
  have hsplit : beforeEnd input ++ stop :: behind = input := by
    rw [← hdrop]
    exact List.takeWhile_append_dropWhile
  rw [parseItems_of_terminated hinput, hdrop] at h
  cases hread : items (beforeEnd input) with
  | ok nodes =>
    rw [hread] at h
    cases h
  | error refusal =>
    rw [hread] at h
    cases h
    obtain ⟨front, left, hbody, hleft, hfront, hother⟩ := items_stops_early hread
    rw [hbody] at hinner hsplit
    obtain ⟨hfrontInner, hleftInner⟩ := List.forall_mem_append.1 hinner
    obtain ⟨token, more, htoken⟩ : ∃ token more, left ++ stop :: behind = token :: more :=
      List.exists_cons_of_ne_nil (by simp)
    obtain ⟨hposition, hnames⟩ := toError_of_refusedAt hleftInner hstop htoken hleft
    refine ⟨front, token, more, ?_, hposition, hnames, hfront, fun other ↦ ?_⟩
    · rw [← htoken, ← List.append_assoc, hsplit]
    · have hleft : left = beforeEnd (token :: more) := by
        rw [← htoken, beforeEnd_append hleftInner, beforeEnd, List.takeWhile_cons]
        simp [hstop]
      have hhead : (beforeEnd (token :: other)).head? = left.head? := by
        rw [hleft]
        exact head?_beforeEnd_congr rfl
      rw [beforeEnd_append hfrontInner]
      exact hother _ hhead

/--
Terminated tokens that are refused have their error at the first token with which nothing accepted
goes on: the tokens before it are the start of accepted ones, and with it they are the start of
none. The error is at the place of this token and names it. A number between brackets that is no
array size is such a token.
-/
theorem parseItems_stops_early (input : List Token) (hinput : Terminated input)
    {error : SourceError} (h : parseItems input = .error error) :
    ∃ k token, input[k]? = some token ∧
      error.position = token.position ∧ error.problem.Names token ∧
      (∃ accepted nodes, parseItems accepted = .ok nodes ∧ input.take k <+: accepted) ∧
      ∀ accepted nodes, parseItems accepted = .ok nodes → ¬input.take (k + 1) <+: accepted := by
  obtain ⟨front, token, more, rfl, hposition, hnames, ⟨unit, hfront⟩, hother⟩ :=
    exists_stop_of_parseItems hinput h
  have htake : (front ++ token :: more).take (front.length + 1) = front ++ [token] := by
    rw [List.take_length_add_append, List.take_one, List.head?_cons, Option.toList_some]
  refine ⟨front.length, token, ?_, hposition, hnames, ?_, ?_⟩
  · rw [List.getElem?_append_right (le_refl _), Nat.sub_self, List.getElem?_cons_zero]
  · rw [List.take_left]
    exact exists_accepted hfront
  · rintro accepted nodes haccepted ⟨other, rfl⟩
    obtain ⟨refusal, hrefused⟩ := hother other
    rw [parseItems_eq_ok_iff (terminated_of_parseItems haccepted), htake, List.append_assoc,
      List.singleton_append, hrefused] at haccepted
    cases haccepted

/-- An array size of zero in the parameters behind the results of a method, at the twelfth token. -/
theorem parseItems_stops_early_at_size :
    let at' := fun column ↦ (⟨1, column⟩ : Text.Position)
    let input : List Token := [⟨.plugin, "plugin", at' 1⟩, ⟨.identifier, "p", at' 8⟩,
      ⟨.leftBrace, "\x7b", at' 10⟩, ⟨.method, "method", at' 12⟩, ⟨.identifier, "m", at' 19⟩,
      ⟨.returns, "returns", at' 21⟩, ⟨.identifier, "A", at' 29⟩, ⟨.leftBrace, "\x7b", at' 31⟩,
      ⟨.identifier, "x", at' 33⟩, ⟨.identifier, "int8", at' 35⟩, ⟨.leftBracket, "[", at' 39⟩,
      ⟨.numberLiteral, "0", at' 40⟩, ⟨.rightBracket, "]", at' 41⟩, ⟨.endOfInput, "", at' 42⟩]
    Terminated input ∧ parseItems input = .error ⟨.arraySize "0", at' 40⟩ ∧
      (∃ accepted nodes, parseItems accepted = .ok nodes ∧ input.take 11 <+: accepted) ∧
      ∀ accepted nodes, parseItems accepted = .ok nodes → ¬input.take 12 <+: accepted := by
  intro at' input
  have hterminated : Terminated input := ⟨_, rfl, rfl⟩
  have herror : parseItems input = .error ⟨.arraySize "0", at' 40⟩ := by
    decide +kernel
  obtain ⟨k, token, htoken, hposition, -, haccepted, hrefused⟩ :=
    parseItems_stops_early input hterminated herror
  have hk : k = 11 := by
    have hplaces : ∀ k < 14, (input[k]?.map Token.position) = some (at' 40) → k = 11 := by
      decide
    obtain ⟨hlt, -⟩ := List.getElem?_eq_some_iff.1 htoken
    exact hplaces k hlt (by rw [htoken, Option.map_some, ← hposition])
  subst hk
  exact ⟨hterminated, herror, haccepted, hrefused⟩

end SchemaLang
