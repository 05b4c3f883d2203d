import SchemaLang.Proofs.Json.Numeral
import SchemaLang.Proofs.Text.Quoted

/-!
# Layouts of JSON texts

The compact and the spread texts of a value differ in blanks only. A layout says which blanks stand
in front of an item and behind a colon, and how values are written with them, so that what holds of
both ways of writing is stated once.
-/

namespace SchemaLang.Json

open Text (StopsRun stopsRun_cons)

/-- Texts with commas between them. -/
def joined : List (List Char) → List Char
  | [] => []
  | [text] => text
  | text :: next :: rest => text ++ ',' :: joined (next :: rest)

/-- The text of a member: blanks, its key, and its value behind a colon and blanks. -/
def memberText (before gap : List Char) (key : String) (text : List Char) : List Char :=
  before ++ (Text.Quoted.encode key.toList ++ ':' :: (gap ++ text))

/-- A way of writing values that are `level` deep inside arrays and objects. -/
structure Layout where
  write : Nat → Json → List Char
  before : Nat → List Char
  gap : List Char
  blank_before : ∀ level, ∀ c ∈ before level, isBlank c = true
  blank_gap : ∀ c ∈ gap, isBlank c = true
  write_null : ∀ level, write level null = "null".toList
  write_bool : ∀ level value, write level (bool value) =
    if value then "true".toList else "false".toList
  write_integer : ∀ level n, write level (integer n) = integerText n
  write_float : ∀ level x, write level (float x) = floatText x
  write_string : ∀ level text, write level (string text) = Text.Quoted.encode text.toList
  write_array_nil : ∀ level, write level (array []) = ['[', ']']
  write_array_cons : ∀ level item items, write level (array (item :: items)) =
    '[' :: (joined ((item :: items).map fun item ↦ before (level + 1) ++ write (level + 1) item) ++
      (before level ++ [']']))
  write_object_nil : ∀ level, write level (object []) = ['{', '}']
  write_object_cons : ∀ level member members, write level (object (member :: members)) =
    '{' :: (joined ((member :: members).map fun member ↦
        memberText (before (level + 1)) gap member.1 (write (level + 1) member.2)) ++
      (before level ++ ['}']))

/-! ## The two layouts -/

theorem compactItems_eq (items : List Json) :
    compactItems items = joined (items.map compactText) := by
  induction items with
  | nil => rw [compactItems, List.map_nil, joined]
  | cons item items ih =>
    cases items with
    | nil => rw [compactItems, List.map_singleton, joined]
    | cons next items => rw [compactItems, ih, List.map_cons, List.map_cons, List.map_cons, joined]

theorem compactMembers_eq (members : List (String × Json)) :
    compactMembers members =
      joined (members.map fun member ↦ memberText [] [] member.1 member.2.compactText) := by
  induction members with
  | nil => rw [compactMembers, List.map_nil, joined]
  | cons member members ih =>
    cases members with
    | nil => rw [compactMembers, List.map_singleton, joined, memberText, List.nil_append,
        List.nil_append]
    | cons next members =>
      rw [compactMembers, ih, List.map_cons, List.map_cons, List.map_cons, joined]
      simp only [memberText, List.append_assoc, List.cons_append, List.nil_append]

theorem spreadItems_eq (level : Nat) (items : List Json) :
    spreadItems level items =
      joined (items.map fun item ↦ newLine level ++ spreadText level item) := by
  induction items with
  | nil => rw [spreadItems, List.map_nil, joined]
  | cons item items ih =>
    cases items with
    | nil => rw [spreadItems, List.map_singleton, joined]
    | cons next items => rw [spreadItems, ih, List.map_cons, List.map_cons, List.map_cons, joined]

theorem spreadMembers_eq (level : Nat) (members : List (String × Json)) :
    spreadMembers level members = joined (members.map fun member ↦
      memberText (newLine level) [' '] member.1 (spreadText level member.2)) := by
  induction members with
  | nil => rw [spreadMembers, List.map_nil, joined]
  | cons member members ih =>
    cases members with
    | nil => rw [spreadMembers, List.map_singleton, joined, memberText, List.append_assoc,
        List.singleton_append]
    | cons next members =>
      rw [spreadMembers, ih, List.map_cons, List.map_cons, List.map_cons, joined]
      simp only [memberText, List.append_assoc, List.cons_append, List.nil_append]

theorem isBlank_of_mem_newLine {level : Nat} {c : Char} (h : c ∈ newLine level) :
    isBlank c = true := by
  rcases List.mem_cons.1 h with rfl | hspace
  · decide
  · rw [List.eq_of_mem_replicate hspace]
    decide

/-- The layout without blanks. -/
def compactLayout : Layout where
  write _ value := value.compactText
  before _ := []
  gap := []
  blank_before _ _ h := absurd h List.not_mem_nil
  blank_gap _ h := absurd h List.not_mem_nil
  write_null _ := by rw [compactText]
  write_bool _ _ := by rw [compactText]
  write_integer _ _ := by rw [compactText]
  write_float _ _ := by rw [compactText]
  write_string _ _ := by rw [compactText]
  write_array_nil _ := by rw [compactText, compactItems, List.nil_append]
  write_array_cons _ _ _ := by rw [compactText, compactItems_eq]; rfl
  write_object_nil _ := by rw [compactText, compactMembers, List.nil_append]
  write_object_cons _ _ _ := by rw [compactText, compactMembers_eq]; rfl

/-- The layout with an item or a member on each line. -/
def spreadLayout : Layout where
  write := spreadText
  before := newLine
  gap := [' ']
  blank_before _ _ := isBlank_of_mem_newLine
  blank_gap := List.forall_mem_singleton.2 (by decide)
  write_null _ := by rw [spreadText]
  write_bool _ _ := by rw [spreadText]
  write_integer _ _ := by rw [spreadText]
  write_float _ _ := by rw [spreadText]
  write_string _ _ := by rw [spreadText]
  write_array_nil _ := by rw [spreadText]
  write_array_cons _ _ _ := by rw [spreadText, spreadItems_eq, List.append_assoc]
  write_object_nil _ := by rw [spreadText]
  write_object_cons _ _ _ := by rw [spreadText, spreadMembers_eq, List.append_assoc]

end SchemaLang.Json
