import SchemaLang.Proofs.Source.Contents

/-!
# Sources behind each other

Two accepted sources with a line feed between them are read one after the other: the lexemes of the
first end with it, its scopes are closed, and the tokens of the second only stand further down
(`tokensOf_append_line`). So their definitions are those of the first and those of the second,
unless a name of the first is defined again (`compile_append_line`).
-/

namespace SchemaLang

open Phrase

/-! ## Tokens -/

/-- Lexemes with a line feed among them: those behind it are cut as they are by themselves. -/
theorem TokenStream.ofText_append_line (p : Text.Position) {front back : List Segment}
    (hfront : Segment.Cut front) (hback : Segment.Cut back) :
    ofText p (Segment.concat front ++ (['\n'] ++ Segment.concat back)) =
      prepend (Segment.tokens p front)
        (ofSegments (p.after (Segment.concat front ++ ['\n'])) back) := by
  have hline : BlankText ['\n'] := .space (by decide) .nil
  rw [ofText_separated p hfront hline (List.cons_ne_nil _ _) fun _ _ ↦ .inl List.mem_cons_self,
    ofText, hback.ofText_concat]

/--
The tokens of two sources with a line feed between them, if the first one ends outside of field
definitions: those of the first, and further down those of the second.
-/
theorem tokensOf_append_line {a b : String} {first second : List Token} {p q : Text.Position}
    (ha : tokensOf a = .ok (first ++ [Segment.endToken p]))
    (hb : tokensOf b = .ok (second ++ [Segment.endToken q]))
    (hscope : Scope.outside.after first = .outside) :
    ∃ stop, tokensOf (a ++ "\n" ++ b) = .ok (first ++
      second.map (·.moved (.down (a.toList.count '\n' + 1))) ++ [Segment.endToken stop]) := by
  obtain ⟨front, hfront, hfrontText, hfirst⟩ := tokensOf_eq_ok_iff.1 ha
  obtain ⟨back, hback, hbackText, hsecond⟩ := tokensOf_eq_ok_iff.1 hb
  obtain ⟨rfl, -⟩ := List.append_inj' hfirst rfl
  obtain ⟨rfl, -⟩ := List.append_inj' hsecond rfl
  obtain ⟨lines, hlines⟩ : ∃ lines, a.toList.count '\n' + 1 = lines := ⟨_, rfl⟩
  rw [hlines]
  have htext : (a ++ "\n" ++ b).toList =
      Segment.concat front ++ (['\n'] ++ Segment.concat back) := by
    rw [hfrontText, hbackText, String.toList_append, String.toList_append, List.append_assoc]
    rfl
  have hplace :
      Text.Position.start.after (Segment.concat front ++ ['\n']) = .down lines .start := by
    rw [hfrontText, Text.Position.after_line, hlines]
    rfl
  have hbehind : Segment.tokens (.down lines .start) back =
      (Segment.tokens .start back).map (·.moved (.down lines)) :=
    Segment.tokens_moved (fun text ↦ (Text.Position.after_down _ _ text).symm) back
  have hread := TokenStream.ofText_append_line .start hfront hback
  rw [TokenStream.ofSegments_of_cut _ hback, hplace, hbehind, ← htext, TokenStream.prepend,
    ← List.append_assoc] at hread
  have houtside : Scope.outside.after (Segment.tokens .start front) = .outside :=
    (after_relabelFrom _ _).symm.trans hscope
  have hscopes : relabelFrom .outside (Segment.tokens .start front ++
      (Segment.tokens .start back).map (·.moved (.down lines))) =
      relabel (Segment.tokens .start front) ++
        (relabel (Segment.tokens .start back)).map (·.moved (.down lines)) := by
    rw [relabelFrom_append, houtside, relabelFrom_moved]
    rfl
  have htokens := tokensOf_of_ofText hread
  rw [relabel, relabelFrom_append_endToken, hscopes] at htokens
  exact ⟨_, htokens⟩

/-! ## Names -/

/-- Items with new names are passed over, and their names are taken behind them. -/
theorem firstRepeated?_append {taken : List String} {front : List ItemNode}
    (h : firstRepeated? taken front = none) (back : List ItemNode) :
    firstRepeated? taken (front ++ back) =
      firstRepeated? ((front.map ItemNode.name).reverse ++ taken) back := by
  induction front generalizing taken with
  | nil => rfl
  | cons node front ih =>
    rw [firstRepeated?] at h
    split at h
    · cases h
    · next hnew =>
      rw [List.cons_append, firstRepeated?, if_neg hnew, ih h, List.map_cons, List.reverse_cons,
        List.append_assoc, List.singleton_append]

/-- The first item whose name is taken is found behind items with new names. -/
theorem firstRepeated?_of_taken {taken : List String} {before : List ItemNode}
    (h : firstRepeated? taken before = none) {node : ItemNode} (hname : node.name ∈ taken)
    (behind : List ItemNode) : firstRepeated? taken (before ++ node :: behind) = some node := by
  have hmem : node.name ∈ (before.map ItemNode.name).reverse ++ taken :=
    List.mem_append_right _ hname
  rw [firstRepeated?_append h, firstRepeated?, if_pos (List.contains_iff_mem.2 hmem)]

/-- The first item whose name is among some names. -/
theorem exists_first_taken {taken : List String} {nodes : List ItemNode} {name : String}
    (hname : name ∈ nodes.map ItemNode.name) (htaken : name ∈ taken) :
    ∃ before node behind, nodes = before ++ node :: behind ∧
      (∀ other ∈ before, other.name ∉ taken) ∧ node.name ∈ taken := by
  obtain ⟨found, hfound, rfl⟩ := List.mem_map.1 hname
  have hsome : (nodes.find? fun node ↦ decide (node.name ∈ taken)).isSome := by
    rw [List.find?_isSome]
    exact ⟨found, hfound, decide_eq_true htaken⟩
  obtain ⟨node, hnode⟩ := Option.isSome_iff_exists.1 hsome
  obtain ⟨hmem, before, behind, hsplit, hbefore⟩ := List.find?_eq_some_iff_append.1 hnode
  refine ⟨before, node, behind, hsplit, fun other hother ↦ ?_, of_decide_eq_true hmem⟩
  simpa using hbefore other hother

/-! ## Definitions -/

/-- The items of two accepted sources with a line feed between them. -/
theorem itemsOf_append_line {a b : String} {first second : List Definition}
    (ha : compile a = .ok first) (hb : compile b = .ok second) :
    ∃ left right, itemsOf a = .ok left ∧ left.map Definition.ofNode = first ∧
      itemsOf b = .ok right ∧ right.map Definition.ofNode = second ∧
      itemsOf (a ++ "\n" ++ b) =
        .ok (left ++ right.map (ItemNode.moved (.down (a.toList.count '\n' + 1)))) := by
  obtain ⟨left, p, hleft, -, hfirst⟩ := compile_eq_ok_iff.1 ha
  obtain ⟨right, q, hright, -, hsecond⟩ := compile_eq_ok_iff.1 hb
  obtain ⟨stop, hboth⟩ := tokensOf_append_line hleft hright (after_unit left)
  let move := Text.Position.down (a.toList.count '\n' + 1)
  have hunit : tokens (left ++ Phrase.moved move right) =
      tokens left ++ (tokens right).map (·.moved move) := by
    rw [tokens_append, tokens_moved]
  have hnodes : UnitPhrase.nodes (left ++ Phrase.moved move right) =
      left.nodes ++ right.nodes.map (ItemNode.moved move) := by
    rw [UnitPhrase.nodes, List.map_append]
    exact congrArg (left.nodes ++ ·) (UnitPhrase.nodes_moved move right)
  have hitems {source : String} {unit : UnitPhrase} {stop : Text.Position}
      (h : tokensOf source = .ok (tokens unit ++ [Segment.endToken stop])) :
      itemsOf source = .ok unit.nodes := by
    rw [itemsOf_eq h, TokenReader.items_unit]
  rw [← hunit] at hboth
  refine ⟨left.nodes, right.nodes, hitems hleft, hfirst, hitems hright, hsecond, ?_⟩
  rw [hitems hboth, hnodes]

theorem compile_of_itemsOf {source : String} {nodes : List ItemNode}
    (h : itemsOf source = .ok nodes) : compile source = match firstRepeated? [] nodes with
      | some node => .error ⟨.definedTwice node.name, node.nameToken.position⟩
      | none => .ok (nodes.map Definition.ofNode) := by
  rw [compile, verifiedItemsOf, h, ok_bind, verifyNames]
  cases firstRepeated? [] nodes <;> rfl

theorem firstRepeated?_of_compile {source : String} {nodes : List ItemNode}
    (hitems : itemsOf source = .ok nodes) {definitions : List Definition}
    (h : compile source = .ok definitions) : firstRepeated? [] nodes = none := by
  rw [compile_of_itemsOf hitems] at h
  split at h
  · cases h
  · next hnone => exact hnone

/--
Two accepted sources with a line feed between them have the definitions of both. If a name of the
first one is defined again, the first definition that does so is refused, at its name.
-/
theorem compile_append_line {a b : String} {first second : List Definition}
    (ha : compile a = .ok first) (hb : compile b = .ok second) :
    ((∀ name ∈ second.map Definition.name, name ∉ first.map Definition.name) →
      compile (a ++ "\n" ++ b) = .ok (first ++ second)) ∧
    (¬(∀ name ∈ second.map Definition.name, name ∉ first.map Definition.name) →
      ∃ before node behind,
        itemsOf b = .ok (before ++ node :: behind) ∧
        (before ++ node :: behind).map Definition.ofNode = second ∧
        (∀ other ∈ before, other.name ∉ first.map Definition.name) ∧
        node.name ∈ first.map Definition.name ∧
        compile (a ++ "\n" ++ b) = .error ⟨.definedTwice node.name,
          node.nameToken.position.down (a.toList.count '\n' + 1)⟩) := by
  obtain ⟨left, right, hleft, rfl, hright, rfl, hboth⟩ := itemsOf_append_line ha hb
  have hleftNew := firstRepeated?_of_compile hleft ha
  have hrightNew := firstRepeated?_of_compile hright hb
  have hnodup : (right.map ItemNode.name).Nodup := (firstRepeated?_eq_none_iff.1 hrightNew).1
  rw [compile_of_itemsOf hboth, firstRepeated?_append hleftNew, firstRepeated?_moved,
    Definition.map_name_ofNode, Definition.map_name_ofNode, List.append_nil]
  have hnone {nodes : List ItemNode} (hnodup : (nodes.map ItemNode.name).Nodup)
      (hnew : ∀ name ∈ nodes.map ItemNode.name, name ∉ left.map ItemNode.name) :
      firstRepeated? (left.map ItemNode.name).reverse nodes = none := by
    refine firstRepeated?_eq_none_iff.2 ⟨hnodup, fun name hname hmem ↦ ?_⟩
    exact hnew name hname (List.mem_reverse.1 hmem)
  constructor
  · intro hnew
    rw [hnone hnodup hnew, List.map_append, Definition.map_ofNode_moved]
    rfl
  · intro htaken
    push Not at htaken
    obtain ⟨name, hname, hmem⟩ := htaken
    obtain ⟨before, node, behind, rfl, hnew, hnode⟩ := exists_first_taken hname hmem
    rw [List.map_append] at hnodup
    have hbefore : firstRepeated? (left.map ItemNode.name).reverse before = none :=
      hnone (List.nodup_append.1 hnodup).1 (List.forall_mem_map.2 hnew)
    refine ⟨before, node, behind, hright, rfl, hnew, hnode, ?_⟩
    rw [firstRepeated?_of_taken hbefore (List.mem_reverse.2 hnode)]
    dsimp only [Option.map_some]
    rw [ItemNode.name_moved, ItemNode.nameToken_moved]
    rfl

/-- A source that ends with a comment, before one with a new name and before one with its own. -/
theorem compile_append_line_behind_comment :
    compile "schema A\x7bx B\x7d// one" = .ok [.schema ⟨"A", [{ name := "x", type := "B" }]⟩] ∧
    compile "plugin p\x7b\x7d" = .ok [.plugin ⟨"p", "P", []⟩] ∧
    compile ("schema A\x7bx B\x7d// one" ++ "\n" ++ "plugin p\x7b\x7d") =
      .ok [.schema ⟨"A", [{ name := "x", type := "B" }]⟩, .plugin ⟨"p", "P", []⟩] ∧
    compile "schema C\x7b\x7d\nplugin A\x7b\x7d" =
      .ok [.schema ⟨"C", []⟩, .plugin ⟨"A", "A", []⟩] ∧
    (∃ before node behind,
      itemsOf "schema C\x7b\x7d\nplugin A\x7b\x7d" = .ok (before ++ node :: behind) ∧
      compile ("schema A\x7bx B\x7d// one" ++ "\n" ++ "schema C\x7b\x7d\nplugin A\x7b\x7d") =
        .error ⟨.definedTwice node.name, node.nameToken.position.down 1⟩) ∧
    compile ("schema A\x7bx B\x7d// one" ++ "\n" ++ "schema C\x7b\x7d\nplugin A\x7b\x7d") =
      .error ⟨.definedTwice "A", ⟨3, 8⟩⟩ := by
  have ha : compile "schema A\x7bx B\x7d// one" =
      .ok [.schema ⟨"A", [{ name := "x", type := "B" }]⟩] := by
    decide +kernel
  have hb : compile "plugin p\x7b\x7d" = .ok [.plugin ⟨"p", "P", []⟩] := by
    decide +kernel
  have hc : compile "schema C\x7b\x7d\nplugin A\x7b\x7d" =
      .ok [.schema ⟨"C", []⟩, .plugin ⟨"A", "A", []⟩] := by
    decide +kernel
  obtain ⟨before, node, behind, hitems, -, -, -, herror⟩ :=
    (compile_append_line ha hc).2 (by decide)
  exact ⟨ha, hb, (compile_append_line ha hb).1 (by decide), hc,
    ⟨before, node, behind, hitems, herror⟩, by decide +kernel⟩

end SchemaLang
