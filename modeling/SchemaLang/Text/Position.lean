/-!
# Positions in a source

A position is a line and a column, both counted from one; a column counts characters. Only the
line feed ends a line. The position after a text follows from the position before it, character
by character, or all at once from the line feeds of the text and what stands behind the last of them
(`after_eq`).
-/

namespace SchemaLang.Text

/-- A place in a source text. -/
structure Position where
  line : Nat
  column : Nat
  deriving DecidableEq, Repr, Inhabited

namespace Position

/-- The place of the first character. -/
def start : Position := ⟨1, 1⟩

/-- The place after one character. -/
def next (p : Position) (c : Char) : Position :=
  if c = '\n' then ⟨p.line + 1, 1⟩ else ⟨p.line, p.column + 1⟩

/-- The place after a text. -/
def after (p : Position) (text : List Char) : Position := text.foldl next p

@[simp] theorem after_nil (p : Position) : p.after [] = p := rfl

@[simp] theorem after_cons (p : Position) (c : Char) (text : List Char) :
    p.after (c :: text) = (p.next c).after text := rfl

theorem after_append (p : Position) (a b : List Char) :
    p.after (a ++ b) = (p.after a).after b := List.foldl_append

theorem after_reverse (p : Position) (text : List Char) :
    p.after text.reverse =
      if '\n' ∈ text then
        ⟨p.line + text.count '\n', (text.takeWhile (· ≠ '\n')).length + 1⟩
      else ⟨p.line, p.column + text.length⟩ := by
  induction text with
  | nil => rfl
  | cons c text ih =>
    rw [List.reverse_cons, after_append, after_cons, after_nil, ih, next]
    by_cases hc : c = '\n'
    · by_cases hmem : '\n' ∈ text
      · simp [hc, hmem, Nat.add_assoc]
      · simp [hc, hmem, List.count_eq_zero_of_not_mem hmem]
    · have hne : '\n' ≠ c := fun h => hc h.symm
      by_cases hmem : '\n' ∈ text
      · simp [hc, hmem]
      · simp [hc, hne, hmem, Nat.add_assoc]

/--
The place after a text, counted at once. A text with line feeds leads as many lines further down,
behind its last part; one without them leads as many columns further on as it has characters.
-/
theorem after_eq (p : Position) (text : List Char) :
    p.after text =
      if '\n' ∈ text then
        ⟨p.line + text.count '\n', (text.reverse.takeWhile (· ≠ '\n')).length + 1⟩
      else ⟨p.line, p.column + text.length⟩ := by
  simpa only [List.reverse_reverse, List.mem_reverse, List.count_reverse, List.length_reverse]
    using after_reverse p text.reverse

theorem after_of_notMem {text : List Char} (h : '\n' ∉ text) (p : Position) :
    p.after text = ⟨p.line, p.column + text.length⟩ := by
  rw [after_eq, if_neg h]

theorem line_after (p : Position) (text : List Char) :
    (p.after text).line = p.line + text.count '\n' := by
  rw [after_eq]
  split
  · rfl
  · next h => rw [List.count_eq_zero_of_not_mem h, Nat.add_zero]

/-- The column behind a text counts the characters behind its last line feed. -/
theorem column_after (text : List Char) :
    (start.after text).column = 1 + (text.reverse.takeWhile (· ≠ '\n')).length := by
  rw [after_eq]
  split
  · exact Nat.add_comm _ 1
  · next h =>
    have hline : ∀ c ∈ text.reverse, decide (c ≠ '\n') = true := fun c hc =>
      decide_eq_true fun heq => h (heq ▸ List.mem_reverse.1 hc)
    have hself : (text.reverse ++ []).takeWhile (· ≠ '\n') = text.reverse ++ [] :=
      List.takeWhile_append_of_pos hline
    rw [List.append_nil] at hself
    rw [hself, List.length_reverse]
    rfl

end Position

end SchemaLang.Text
