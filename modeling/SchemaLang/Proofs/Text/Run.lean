import Mathlib.Data.List.TakeDrop
import Mathlib.Data.List.TakeWhile

/-!
# Runs of characters of a class

A text is taken apart into the characters of a class it starts with and the rest. Where the rest
starts with no character of the class, that gives back the two parts a text was made of.
-/

namespace SchemaLang.Text

variable {p : Char → Bool} {text rest : List Char}

/-- A text does not start with a character of a class. -/
def StopsRun (p : Char → Bool) (text : List Char) : Prop := ∀ c ∈ text.head?, p c = false

theorem stopsRun_nil (p : Char → Bool) : StopsRun p [] := by
  simp [StopsRun]

theorem stopsRun_cons {c : Char} : StopsRun p (c :: text) ↔ p c = false := by
  simp [StopsRun]

theorem all_of_length_takeWhile (h : (text.takeWhile p).length = text.length) :
    ∀ c ∈ text, p c = true :=
  List.takeWhile_eq_self_iff.1 ((List.takeWhile_prefix p).eq_of_length h)

theorem length_takeWhile_append (text rest : List Char) :
    ((text ++ rest).takeWhile p).length = text.length ↔
      (text.takeWhile p).length = text.length ∧ StopsRun p rest := by
  induction text with
  | nil =>
    cases rest with
    | nil => simp [StopsRun]
    | cons c rest => by_cases hc : p c <;> simp [StopsRun, hc]
  | cons c text ih =>
    by_cases hc : p c
    · simp only [List.cons_append, List.takeWhile_cons, hc, if_true, List.length_cons,
        Nat.succ_inj, ih]
    · simp [hc]

/-- A text that starts with no character of a class begins with an empty run. -/
theorem StopsRun.takeWhile_eq (h : StopsRun p rest) : rest.takeWhile p = [] := by
  cases rest with
  | nil => rfl
  | cons c rest => rw [List.takeWhile_cons, stopsRun_cons.1 h, if_neg Bool.false_ne_true]

theorem StopsRun.dropWhile_eq (h : StopsRun p rest) : rest.dropWhile p = rest := by
  cases rest with
  | nil => rfl
  | cons c rest => rw [List.dropWhile_cons, stopsRun_cons.1 h, if_neg Bool.false_ne_true]

/-- The run that a text starts with, and what stands behind it. -/
theorem exists_run (p : Char → Bool) (text : List Char) :
    ∃ run behind, text = run ++ behind ∧ (∀ c ∈ run, p c = true) ∧ StopsRun p behind := by
  refine ⟨text.takeWhile p, text.dropWhile p, List.takeWhile_append_dropWhile.symm,
    fun c hc ↦ List.mem_takeWhile_imp hc, fun c hc ↦ ?_⟩
  have hhead := List.head?_dropWhile_not p text
  rw [hc] at hhead
  exact hhead

/-- The run in front of a text that does not go on with it. -/
theorem span_append (htext : ∀ c ∈ text, p c = true) (hrest : StopsRun p rest) :
    (text ++ rest).span p = (text, rest) := by
  rw [List.span_eq_takeWhile_dropWhile, List.takeWhile_append_of_pos htext,
    List.dropWhile_append_of_pos htext, hrest.takeWhile_eq, hrest.dropWhile_eq, List.append_nil]

end SchemaLang.Text
