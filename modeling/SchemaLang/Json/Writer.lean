import SchemaLang.Json.Value
import SchemaLang.Number.Layout
import SchemaLang.Text.Quoted

/-!
# Writing JSON texts

Two layouts of JSON texts: the compact one without blanks, and the spread one with a member or an
item on each line, indented by two spaces per level. In both an empty array or object is a pair of
brackets. Numbers that are not finite have no notation and are written as null.
-/

namespace SchemaLang.Json

/-- The text of an integer. -/
def integerText (n : Int) : List Char :=
  (if n < 0 then ['-'] else []) ++ Decimal.toDigits n.natAbs

/-- The text of a number with a fraction. -/
def floatText (x : Binary64) : List Char :=
  if x.isFinite then (NumberFormat.json.lay x).toList else "null".toList

mutual

/-- The compact text of a value. -/
def compactText : Json → List Char
  | null => "null".toList
  | bool value => if value then "true".toList else "false".toList
  | integer value => integerText value
  | float value => floatText value
  | string value => Text.Quoted.encode value.toList
  | array items => '[' :: (compactItems items ++ [']'])
  | object members => '{' :: (compactMembers members ++ ['}'])

/-- The compact texts of items with commas between them. -/
def compactItems : List Json → List Char
  | [] => []
  | [item] => compactText item
  | item :: next :: rest => compactText item ++ ',' :: compactItems (next :: rest)

/-- The compact texts of members with commas between them. -/
def compactMembers : List (String × Json) → List Char
  | [] => []
  | [(key, value)] => Text.Quoted.encode key.toList ++ ':' :: compactText value
  | (key, value) :: next :: rest =>
    Text.Quoted.encode key.toList ++
      ':' :: (compactText value ++ ',' :: compactMembers (next :: rest))

end

/-- A line feed and the indentation of a level. -/
def newLine (level : Nat) : List Char := '\n' :: List.replicate (2 * level) ' '

mutual

/-- The spread text of a value that stands at a level. -/
def spreadText (level : Nat) : Json → List Char
  | null => "null".toList
  | bool value => if value then "true".toList else "false".toList
  | integer value => integerText value
  | float value => floatText value
  | string value => Text.Quoted.encode value.toList
  | array [] => ['[', ']']
  | array (item :: rest) =>
    '[' :: (spreadItems (level + 1) (item :: rest) ++ newLine level ++ [']'])
  | object [] => ['{', '}']
  | object (member :: rest) =>
    '{' :: (spreadMembers (level + 1) (member :: rest) ++ newLine level ++ ['}'])

/-- The spread texts of items, each on a line of its own. -/
def spreadItems (level : Nat) : List Json → List Char
  | [] => []
  | [item] => newLine level ++ spreadText level item
  | item :: next :: rest =>
    newLine level ++ spreadText level item ++ ',' :: spreadItems level (next :: rest)

/-- The spread texts of members, each on a line of its own. -/
def spreadMembers (level : Nat) : List (String × Json) → List Char
  | [] => []
  | [(key, value)] =>
    newLine level ++ Text.Quoted.encode key.toList ++ ':' :: ' ' :: spreadText level value
  | (key, value) :: next :: rest =>
    newLine level ++ Text.Quoted.encode key.toList ++ ':' :: ' ' :: (spreadText level value ++
      ',' :: spreadMembers level (next :: rest))

end

/-- The compact text of a value. -/
def compact (value : Json) : String := String.ofList value.compactText

/-- The spread text of a value. -/
def spread (value : Json) : String := String.ofList (spreadText 0 value)

end SchemaLang.Json
