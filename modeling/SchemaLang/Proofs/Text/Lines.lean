import Mathlib.Data.List.Basic
import SchemaLang.Proofs.Text.Position
import SchemaLang.Report.Excerpt

/-!
# Lines and positions

A place in a text is a number of whole lines and a part of the next one (`exists_part`). The lines
of the text are these lines, the line of the place and what comes after it, and the position of the
place counts them: its line is one more than the lines before it, its column one more than the part
of the line before it (`exists_lines`). So an excerpt for a place ends with the line of the place,
below at most two lines that stand right before it (`excerpt_of_lines`).
-/

namespace SchemaLang.Text

/-- Lines one below the other, each with a line feed behind it. -/
def unlines (lines : List (List Char)) : List Char := lines.flatMap (· ++ ['\n'])

@[simp] theorem unlines_nil : unlines [] = [] := rfl

@[simp] theorem unlines_cons (line : List Char) (rest : List (List Char)) :
    unlines (line :: rest) = line ++ '\n' :: unlines rest := by
  rw [unlines, List.flatMap_cons, List.append_assoc]
  rfl

theorem unlines_append (lines more : List (List Char)) :
    unlines (lines ++ more) = unlines lines ++ unlines more := List.flatMap_append

theorem intercalate_concat (before : List (List Char)) (line : List Char) :
    List.intercalate ['\n'] (before ++ [line]) = unlines before ++ line := by
  induction before with
  | nil => simp
  | cons first before ih =>
    obtain ⟨second, rest, hrest⟩ : ∃ second rest, before ++ [line] = second :: rest :=
      List.exists_cons_of_ne_nil (by simp)
    rw [List.cons_append, hrest, List.intercalate_cons_cons, ← hrest, ih, unlines_cons]
    simp

/-- A text is some whole lines and a part of a line. -/
theorem exists_part (text : List Char) :
    ∃ whole part, text = unlines whole ++ part ∧ (∀ line ∈ whole, '\n' ∉ line) ∧ '\n' ∉ part := by
  induction text with
  | nil => exact ⟨[], [], rfl, nofun, nofun⟩
  | cons c text ih =>
    obtain ⟨whole, part, rfl, hwhole, hpart⟩ := ih
    by_cases hc : c = '\n'
    · subst hc
      refine ⟨[] :: whole, part, rfl, List.forall_mem_cons.2 ⟨List.not_mem_nil, hwhole⟩, hpart⟩
    · cases whole with
      | nil =>
        have hnew := List.not_mem_cons_of_ne_of_not_mem (Ne.symm hc) hpart
        exact ⟨[], c :: part, rfl, nofun, hnew⟩
      | cons first whole =>
        obtain ⟨hfirst, hwhole⟩ := List.forall_mem_cons.1 hwhole
        refine ⟨(c :: first) :: whole, part, by simp, List.forall_mem_cons.2 ⟨?_, hwhole⟩, hpart⟩
        exact List.not_mem_cons_of_ne_of_not_mem (Ne.symm hc) hfirst

/-- A part of a line belongs to the first line of what is behind it. -/
theorem lines_append_of_notMem {part : List Char} (h : '\n' ∉ part) {behind rest : List Char}
    {later : List (List Char)} (hbehind : lines behind = rest :: later) :
    lines (part ++ behind) = (part ++ rest) :: later := by
  induction part with
  | nil => exact hbehind
  | cons c part ih =>
    rw [List.mem_cons, not_or] at h
    rw [List.cons_append, lines, if_neg (Ne.symm h.1), ih h.2]
    rfl

theorem lines_unlines_append {whole : List (List Char)} (h : ∀ line ∈ whole, '\n' ∉ line)
    (behind : List Char) : lines (unlines whole ++ behind) = whole ++ lines behind := by
  induction whole with
  | nil => rfl
  | cons line whole ih =>
    obtain ⟨hline, hwhole⟩ := List.forall_mem_cons.1 h
    have hrest : lines ('\n' :: (unlines whole ++ behind)) = [] :: (whole ++ lines behind) := by
      rw [lines, if_pos rfl, ih hwhole]
    rw [unlines_cons, List.append_assoc, List.cons_append, lines_append_of_notMem hline hrest,
      List.append_nil, List.cons_append]

theorem lines_of_notMem {text : List Char} (h : '\n' ∉ text) : lines text = [text] := by
  have hline : lines (text ++ []) = [text ++ []] := lines_append_of_notMem h rfl
  rwa [List.append_nil] at hline

/-- The lines of a text, each with a line feed behind it, are the text and a line feed. -/
theorem unlines_lines (text : List Char) : unlines (lines text) = text ++ ['\n'] := by
  obtain ⟨whole, part, rfl, hwhole, hpart⟩ := exists_part text
  rw [lines_unlines_append hwhole, lines_of_notMem hpart, unlines_append, unlines_cons,
    unlines_nil, List.append_assoc]

theorem newline_notMem_of_mem_lines {text line : List Char} (h : line ∈ lines text) :
    '\n' ∉ line := by
  obtain ⟨whole, part, rfl, hwhole, hpart⟩ := exists_part text
  rw [lines_unlines_append hwhole, lines_of_notMem hpart, List.mem_append,
    List.mem_singleton] at h
  rcases h with h | rfl
  · exact hwhole line h
  · exact hpart

theorem length_lines_eq_one_iff {text : List Char} : (lines text).length = 1 ↔ '\n' ∉ text := by
  constructor
  · intro h
    obtain ⟨line, hline⟩ := List.length_eq_one_iff.1 h
    have htext : text = line := by
      rw [← intercalate_lines text, hline, List.intercalate_singleton]
    rw [htext]
    exact newline_notMem_of_mem_lines (hline ▸ List.mem_cons_self)
  · intro h
    rw [lines_of_notMem h, List.length_singleton]

theorem Position.after_unlines {whole : List (List Char)} (h : ∀ line ∈ whole, '\n' ∉ line)
    (line : Nat) : (⟨line, 1⟩ : Position).after (unlines whole) = ⟨line + whole.length, 1⟩ := by
  induction whole generalizing line with
  | nil => rfl
  | cons first whole ih =>
    obtain ⟨hfirst, hwhole⟩ := List.forall_mem_cons.1 h
    have hnext : ((⟨line, 1⟩ : Position).after first).next '\n' = ⟨line + 1, 1⟩ := by
      rw [Position.after_of_notMem hfirst]
      rfl
    rw [unlines_cons, Position.after_append, Position.after_cons, hnext, ih hwhole,
      List.length_cons, Nat.add_assoc, Nat.add_comm 1]

/-- The lines around a place of a text, and its position. -/
theorem exists_lines (before behind : List Char) :
    ∃ earlier part rest later, before = unlines earlier ++ part ∧
      lines (before ++ behind) = earlier ++ (part ++ rest) :: later ∧
      Position.start.after before = ⟨earlier.length + 1, part.length + 1⟩ := by
  obtain ⟨earlier, part, rfl, hearlier, hpart⟩ := exists_part before
  obtain ⟨rest, later, hbehind⟩ := List.exists_cons_of_ne_nil (lines_ne_nil behind)
  refine ⟨earlier, part, rest, later, rfl, ?_, ?_⟩
  · rw [List.append_assoc, lines_unlines_append hearlier, lines_append_of_notMem hpart hbehind]
  · rw [Position.after_append, Position.start, Position.after_unlines hearlier,
      Position.after_of_notMem hpart, Nat.add_comm 1, Nat.add_comm 1]

end SchemaLang.Text

namespace SchemaLang.Report

variable {source : List Char} {earlier later : List (List Char)} {line : List Char}

theorem linesUpTo_of_lines (h : Text.lines source = earlier ++ line :: later) :
    linesUpTo source (earlier.length + 1) = earlier.drop (earlier.length - 2) ++ [line] := by
  have hlength : earlier.length + 1 ≤ (earlier ++ line :: later).length := by
    simp
  have htake : (earlier ++ line :: later).take (earlier.length + 1) = earlier ++ [line] := by
    rw [List.take_length_add_append, List.take_one, List.head?_cons, Option.toList_some]
  rw [linesUpTo, h]
  rw [Nat.min_eq_left hlength, htake, excerptLines, Nat.add_sub_add_right,
    List.drop_append_of_le_length (Nat.sub_le _ _)]

/-- An excerpt shows the line of its place below the lines right before it, and a caret below. -/
theorem excerpt_of_lines {source : String}
    (h : Text.lines source.toList = earlier ++ line :: later) (column : Nat) :
    ∃ shown, shown <:+ earlier ∧ shown.length = min 2 earlier.length ∧
      (excerpt source (earlier.length + 1) column).toList =
        Text.unlines (shown ++ [line]) ++ (List.replicate (column - 1) ' ' ++ ['^']) := by
  refine ⟨earlier.drop (earlier.length - 2), List.drop_suffix _ _, ?_, ?_⟩
  · rw [List.length_drop]
    omega
  · rw [excerpt, String.toList_ofList, linesUpTo_of_lines h, Text.intercalate_concat]
    simp [Text.unlines]

end SchemaLang.Report
