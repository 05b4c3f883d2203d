import SchemaLang.Text.Alphanumeric
import SchemaLang.Text.LetterCase

/-!
# Words of a name

A name is cut into words in order to change its letter case. Characters that are neither letters
nor numbers separate words. Inside a piece a word ends before an upper case letter that follows
a lower case one, and before the last of several upper case letters if a lower case one comes next
(`HTTPApi` has the words `HTTP` and `Api`). Characters without case take the case of what stands
before them.
-/

namespace SchemaLang.Text

/-- The letter case last seen in the current word. -/
inductive CaseMode where
  | boundary
  | lower
  | upper
  deriving DecidableEq, Repr

/-- The letter case seen once a character has been read. -/
def CaseMode.after (mode : CaseMode) (c : Char) : CaseMode :=
  if isLowerCase c then .lower else if isUpperCase c then .upper else mode

/-- The parts of a text between characters that are neither letters nor numbers. -/
def pieces (text : List Char) : List (List Char) :=
  text.foldr
    (fun c parts =>
      if isAlphanumeric c then
        match parts with
        | part :: rest => (c :: part) :: rest
        | [] => [[c]]
      else [] :: parts)
    [[]]

/-- Cuts a piece into words; `current` is the part of the current word already read. -/
def cutWords (mode : CaseMode) (current : List Char) : List Char → List (List Char)
  | [] => []
  | [c] => [current ++ [c]]
  | c :: next :: rest =>
    if mode.after c = .lower ∧ isUpperCase next then
      (current ++ [c]) :: cutWords .boundary [] (next :: rest)
    else if mode = .upper ∧ isUpperCase c ∧ isLowerCase next then
      current :: cutWords .boundary [c] (next :: rest)
    else cutWords (mode.after c) (current ++ [c]) (next :: rest)

/-- The words of a text. -/
def words (text : List Char) : List (List Char) := (pieces text).flatMap (cutWords .boundary [])

/-- A word in lower case. A capital sigma at its end becomes a final sigma. -/
def lowerWord : List Char → List Char
  | [] => []
  | [c] => if c = 'Σ' then ['ς'] else toLowerCase c
  | c :: rest => toLowerCase c ++ lowerWord rest

/-- A word in lower case but for its first character. -/
def capitalizedWord : List Char → List Char
  | [] => []
  | c :: rest => toUpperCase c ++ lowerWord rest

/-- A name with every word capitalized and nothing between the words: `user_info` to `UserInfo`. -/
def upperCamel (name : String) : String :=
  String.ofList ((words name.toList).flatMap capitalizedWord)

/-- A name with every word but the first capitalized: `UserInfo` to `userInfo`. -/
def lowerCamel (name : String) : String :=
  match words name.toList with
  | [] => ""
  | first :: rest => String.ofList (lowerWord first ++ rest.flatMap capitalizedWord)

/-- A name in lower case with an underscore between its words: `sessionID` to `session_id`. -/
def snakeCase (name : String) : String :=
  String.ofList (List.intercalate ['_'] ((words name.toList).map lowerWord))

end SchemaLang.Text
