/-!
# Lines of a text

The parts of a text between line feeds. A text without a line feed is one line, and a line feed at
the end is followed by an empty line.
-/

namespace SchemaLang.Text

/-- The lines of a text. -/
def lines : List Char → List (List Char)
  | [] => [[]]
  | c :: rest =>
    if c = '\n' then [] :: lines rest
    else
      match lines rest with
      | first :: more => (c :: first) :: more
      | [] => [[c]]

theorem lines_ne_nil (text : List Char) : lines text ≠ [] := by
  cases text with
  | nil => simp [lines]
  | cons c rest =>
    unfold lines
    split
    · simp
    · split <;> simp

/-- The lines with line feeds between them are the text again. -/
theorem intercalate_lines (text : List Char) : List.intercalate ['\n'] (lines text) = text := by
  induction text with
  | nil => rfl
  | cons c rest ih =>
    cases hlines : lines rest with
    | nil => exact absurd hlines (lines_ne_nil rest)
    | cons first more =>
      rw [hlines] at ih
      by_cases hc : c = '\n'
      · subst hc
        rw [lines, if_pos rfl, hlines, ← ih]
        cases more <;> simp [List.intercalate, List.intersperse]
      · rw [lines, if_neg hc, hlines, ← ih]
        cases more <;> simp [List.intercalate, List.intersperse]

end SchemaLang.Text
