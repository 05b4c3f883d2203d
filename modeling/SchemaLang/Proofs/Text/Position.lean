import SchemaLang.Text.Position

/-!
# Positions behind a text

The position behind a text is on the same line exactly if the text has no line feed, and then it is
as many columns further on as the text has characters. A text that is made longer or shorter moves
what stands behind it on the same line, and nothing else (`shifted`). Lines in front of a text move
it down by as many lines (`down`).
-/

namespace SchemaLang.Text.Position

theorem line_lt_after {text : List Char} (h : '\n' ∈ text) (p : Position) :
    p.line < (p.after text).line := by
  rw [line_after]
  exact Nat.lt_add_of_pos_right (List.count_pos_iff.2 h)

/-- Behind a line feed the column before it no longer counts. -/
theorem after_congr {text : List Char} (h : '\n' ∈ text) {p q : Position}
    (hline : p.line = q.line) : p.after text = q.after text := by
  rw [after_eq, after_eq, if_pos h, if_pos h, hline]

/-- A position when what ends at `old` ends at `new` instead. -/
def shifted (old new p : Position) : Position :=
  if p.line = old.line ∧ old.column ≤ p.column then
    ⟨new.line, new.column + (p.column - old.column)⟩
  else p

/-- Positions behind the change move with it. -/
theorem shifted_after {old new : Position} (hline : old.line = new.line) (text : List Char) :
    shifted old new (old.after text) = new.after text := by
  by_cases hmem : '\n' ∈ text
  · have hlt := line_lt_after hmem old
    rw [shifted, if_neg, after_congr hmem hline]
    omega
  · rw [after_of_notMem hmem, after_of_notMem hmem, shifted, if_pos]
    · simp
    · exact ⟨rfl, Nat.le_add_right _ _⟩

/-- Positions from which the change is still ahead stay where they are. -/
theorem shifted_of_lt {old p : Position} (text : List Char) (new : Position)
    (hline : (p.after text).line = old.line) (hcolumn : (p.after text).column < old.column) :
    shifted old new p = p := by
  refine if_neg fun h ↦ ?_
  by_cases hmem : '\n' ∈ text
  · have := line_lt_after hmem p
    omega
  · rw [after_of_notMem hmem] at hcolumn
    dsimp only at hcolumn
    omega

/-- A position with something between it and the change stays where it is. -/
theorem shifted_of_after {old p : Position} {text : List Char} (hne : text ≠ [])
    (h : p.after text = old) (new : Position) : shifted old new p = p := by
  subst h
  refine if_neg fun hbehind ↦ ?_
  by_cases hmem : '\n' ∈ text
  · have := line_lt_after hmem p
    omega
  · have hpos := List.length_pos_iff.2 hne
    rw [after_of_notMem hmem] at hbehind
    dsimp only at hbehind
    omega

/-- A position some lines further down. -/
def down (lines : Nat) (p : Position) : Position := ⟨p.line + lines, p.column⟩

theorem after_down (lines : Nat) (p : Position) (text : List Char) :
    (p.down lines).after text = (p.after text).down lines := by
  rw [after_eq, after_eq]
  split
  · exact congrArg (Position.mk · _) (Nat.add_right_comm p.line lines _)
  · rfl

/-- Behind whole lines the first column comes again. -/
theorem after_line (p : Position) (text : List Char) :
    p.after (text ++ ['\n']) = ⟨p.line + (text.count '\n' + 1), 1⟩ := by
  calc
    p.after (text ++ ['\n']) = (p.after text).next '\n' := after_append p text ['\n']
    _ = ⟨(p.after text).line + 1, 1⟩ := rfl
    _ = ⟨p.line + (text.count '\n' + 1), 1⟩ := by rw [line_after, Nat.add_assoc]

/-- Places of a source tell how much of it stands before them. -/
theorem eq_of_after_take {source : List Char} {j k : Nat} (hj : j ≤ source.length)
    (hk : k ≤ source.length) {p : Position}
    (h : p.after (source.take j) = p.after (source.take k)) : j = k := by
  have hle {j k : Nat} (hjk : j ≤ k) (hk : k ≤ source.length)
      (h : p.after (source.take j) = p.after (source.take k)) : j = k := by
    obtain ⟨more, hmore⟩ : ∃ more, (source.drop j).take (k - j) = more := ⟨_, rfl⟩
    have hlength : more.length = k - j := by
      rw [← hmore, List.length_take, List.length_drop]
      omega
    have hsplit : source.take k = source.take j ++ more := by
      rw [← hmore, ← List.take_add, Nat.add_sub_cancel' hjk]
    rw [hsplit, after_append] at h
    by_cases hline : '\n' ∈ more
    · have hlt := line_lt_after hline (p.after (source.take j))
      rw [← h] at hlt
      exact absurd hlt (Nat.lt_irrefl _)
    · rw [after_of_notMem hline] at h
      have hcolumn := congrArg Position.column h
      dsimp only at hcolumn
      omega
  rcases Nat.le_total j k with hjk | hkj
  · exact hle hjk hk h
  · exact (hle hkj hj h.symm).symm

end SchemaLang.Text.Position
