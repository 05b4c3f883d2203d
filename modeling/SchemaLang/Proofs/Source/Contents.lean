import SchemaLang.Proofs.Source.Accepted
import SchemaLang.Proofs.Source.Placement
import SchemaLang.Proofs.Token.Blanks

/-!
# What the tokens of a source say

Everything behind the cutting of a source looks at its tokens only (`compile_eq`), and of a token
only at its kind and its text. Two lists of tokens that say the same are one list of tokens at two
places, where each token stands for its number. So they give the same definitions, or they are
refused for the same reason at the tokens with the same number (`definitionsOf_congr`).
-/

namespace SchemaLang

/-- What a token says, wherever it stands. -/
def Token.content (token : Token) : TokenKind × String := (token.kind, token.text)

/-- The definitions that tokens give. -/
def definitionsOf (input : List Token) : Except SourceError (List Definition) := do
  let nodes ← parseItems input
  verifyNames nodes
  return nodes.map Definition.ofNode

theorem compile_eq (source : String) : compile source = tokensOf source >>= definitionsOf := by
  unfold compile verifiedItemsOf itemsOf definitionsOf
  simp only [bind_assoc, pure_bind]

/-- The tokens of a source whose stream has no stray characters. -/
theorem tokensOf_of_ofText {source : String} {raw : List Token}
    (h : TokenStream.ofText .start source.toList = ⟨raw, []⟩) :
    tokensOf source = .ok (relabel raw) := by
  unfold TokenStream.ofText at h
  unfold tokensOf TokenStream.ofSource
  rw [h]

/-! ## The place of an error -/

theorem Terminated.congr {input other : List Token} (h : Terminated input)
    (hsame : other.map Token.content = input.map Token.content) : Terminated other := by
  obtain ⟨last, hlast, hkind⟩ := h
  have hcontent : (other.map Token.content).getLast? = some last.content := by
    rw [hsame, List.getLast?_map, hlast, Option.map_some]
  rw [List.getLast?_map] at hcontent
  obtain ⟨token, htoken, hsay⟩ := Option.map_eq_some_iff.1 hcontent
  have hkinds : token.kind = last.kind := congrArg Prod.fst hsay
  exact ⟨token, htoken, hkinds.trans hkind⟩

/-- Tokens at other places give the same definitions, or the error at its moved token. -/
theorem definitionsOf_moved {input : List Token} (h : Terminated input)
    (move : Text.Position → Text.Position) :
    definitionsOf (input.map (·.moved move)) =
      (definitionsOf input).mapError (SourceError.moved move) := by
  unfold definitionsOf
  rw [parseItems_moved move h]
  cases parseItems input with
  | error error => rfl
  | ok nodes =>
    dsimp only [ok_bind]
    rw [verifyNames_moved, Definition.map_ofNode_moved]
    cases verifyNames nodes <;> rfl

/-- An error is at a token. -/
theorem position_of_definitionsOf {input : List Token} (h : Terminated input) {error : SourceError}
    (herror : definitionsOf input = .error error) :
    ∃ token ∈ input, token.position = error.position := by
  -- A move that keeps exactly the places of the tokens keeps the error where it is.
  let move (p : Text.Position) : Text.Position :=
    if p ∈ input.map Token.position then p else ⟨p.line, p.column + 1⟩
  have hself : input.map (·.moved move) = input := by
    have hfixed (token : Token) (htoken : token ∈ input) : token.moved move = token := by
      have hplace : move token.position = token.position := if_pos (List.mem_map_of_mem htoken)
      exact congrArg (Token.mk token.kind token.text) hplace
    exact (List.map_congr_left hfixed).trans (List.map_id input)
  have hmoved := definitionsOf_moved h move
  rw [hself, herror] at hmoved
  have hplace : error.position = move error.position :=
    congrArg SourceError.position (Except.error.inj hmoved)
  by_contra hnone
  have hnotMem : error.position ∉ input.map Token.position := by
    rw [List.mem_map]
    exact hnone
  have hcolumn : error.position.column = error.position.column + 1 := by
    have hmove : move error.position = ⟨error.position.line, error.position.column + 1⟩ :=
      if_neg hnotMem
    exact congrArg Text.Position.column (hplace.trans hmove)
  exact Nat.succ_ne_self _ hcolumn.symm

/-! ## Numbers for places -/

/-- Tokens that stand at their numbers. -/
def numbered (input : List Token) : List Token :=
  input.mapIdx fun i token ↦ { token with position := ⟨i, 0⟩ }

/-- The place of the token with the number that stands for a place. -/
def placeIn (input : List Token) (number : Text.Position) : Text.Position :=
  (input[number.line]?.map Token.position).getD number

theorem content_numbered (input : List Token) :
    (numbered input).map Token.content = input.map Token.content := by
  apply List.ext_getElem
  · simp [numbered]
  · intro i hleft hright
    simp [numbered, Token.content]

theorem length_eq_of_content {input other : List Token}
    (h : other.map Token.content = input.map Token.content) : other.length = input.length := by
  simpa only [List.length_map] using congrArg List.length h

/-- Tokens that say the same are the same by their numbers. -/
theorem numbered_congr {input other : List Token}
    (h : other.map Token.content = input.map Token.content) : numbered other = numbered input := by
  have hlength := length_eq_of_content h
  apply List.ext_getElem
  · simpa [numbered] using hlength
  · intro i hleft hright
    have hi : i < input.length := by simpa [numbered] using hright
    have ho : i < other.length := hlength ▸ hi
    have hsay : other[i].content = input[i].content := by
      have hget := List.getElem_of_eq h (by rwa [List.length_map])
      rwa [List.getElem_map, List.getElem_map] at hget
    simp only [numbered, List.getElem_mapIdx]
    rw [Token.content, Token.content, Prod.mk.injEq] at hsay
    rw [hsay.1, hsay.2]

/-- Tokens are their numbered ones, moved to their places. -/
theorem numbered_moved (input : List Token) :
    (numbered input).map (·.moved (placeIn input)) = input := by
  apply List.ext_getElem
  · simp [numbered]
  · intro i hleft hright
    simp [numbered, placeIn, Token.moved, hright]

/-- The same definitions, or the same problem at the tokens with the same number. -/
inductive SameAnswer (input other : List Token) :
    Except SourceError (List Definition) → Except SourceError (List Definition) → Prop
  | ok (definitions : List Definition) : SameAnswer input other (.ok definitions) (.ok definitions)
  | error (problem : SourceProblem) {i : Nat} {token counterpart : Token}
      (htoken : input[i]? = some token) (hcounterpart : other[i]? = some counterpart) :
      SameAnswer input other (.error ⟨problem, token.position⟩)
        (.error ⟨problem, counterpart.position⟩)

/-- Tokens that say the same have the same answer. -/
theorem definitionsOf_congr {input other : List Token} (h : Terminated input)
    (hsame : other.map Token.content = input.map Token.content) :
    SameAnswer input other (definitionsOf input) (definitionsOf other) := by
  have hnumbered := h.congr (content_numbered input)
  have hinput := definitionsOf_moved hnumbered (placeIn input)
  have hother := definitionsOf_moved hnumbered (placeIn other)
  rw [numbered_moved] at hinput
  rw [← numbered_congr hsame, numbered_moved, numbered_congr hsame] at hother
  rw [hinput, hother]
  cases hanswer : definitionsOf (numbered input) with
  | ok definitions => exact .ok definitions
  | error error =>
    obtain ⟨token, hmem, hposition⟩ := position_of_definitionsOf hnumbered hanswer
    obtain ⟨i, hi, rfl⟩ := List.mem_mapIdx.1 hmem
    have ho : i < other.length := length_eq_of_content hsame ▸ hi
    have hplace {tokens : List Token} (h : i < tokens.length) :
        error.moved (placeIn tokens) = ⟨error.problem, tokens[i].position⟩ := by
      simp [SourceError.moved, ← hposition, placeIn, h]
    dsimp only [Except.mapError]
    rw [hplace hi, hplace ho]
    exact .error _ (List.getElem?_eq_getElem hi) (List.getElem?_eq_getElem ho)

end SchemaLang
