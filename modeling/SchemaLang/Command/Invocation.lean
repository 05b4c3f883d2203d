/-!
# The command line

A command line is one of three commands and its options. An option is a letter behind one dash or
a word behind two; its value stands in the same word, behind an equals sign if there is one, or in
the next word, which then must not look like an option. Every option may be given once.
-/

namespace SchemaLang.Command

/-- What is done with the input. -/
inductive Action where
  /-- Write the definitions as JSON. -/
  | interchange (output : Option String)
  /-- Write generated code. -/
  | generate (output module : Option String)
  /-- Write a summary. -/
  | summary
  deriving DecidableEq, Repr

/-- A command with its input. -/
structure Invocation where
  input : String
  action : Action
  deriving DecidableEq, Repr

/-- The file that an action writes to, if it does not write to standard output. -/
def Action.output? : Action → Option String
  | interchange output => output
  | generate output _ => output
  | summary => none

/-- The options of the commands. -/
inductive OptionName where
  | input
  | output
  | module
  deriving DecidableEq, Repr

namespace OptionName

/-- The option behind one dash. -/
def ofLetter? : Char → Option OptionName
  | 'i' => some input
  | 'o' => some output
  | _ => none

/-- The option behind two dashes. -/
def ofWord? (word : List Char) : Option OptionName :=
  if word = "input".toList then some input
  else if word = "output".toList then some output
  else if word = "module".toList then some module
  else none

/-- Whether an option may have an empty value. -/
def allowsEmpty : OptionName → Bool
  | module => true
  | _ => false

end OptionName

/-- The values of options given so far. -/
abbrev Given := List (OptionName × String)

/-- Sets an option that is not given yet. -/
def Given.set? (given : Given) (name : OptionName) (value : List Char) : Option Given :=
  if (given.lookup name).isSome then none
  else if value = [] ∧ name.allowsEmpty = false then none
  else some ((name, String.ofList value) :: given)

/-- What a word of a command line is. -/
inductive Word where
  /-- An option, and its value if it stands in the same word. -/
  | option (name : OptionName) (value : Option (List Char))
  /-- The two dashes behind which no options stand. -/
  | endOfOptions
  /-- What no command takes. -/
  | unknown
  deriving DecidableEq, Repr

/-- What a word is where an option may stand. -/
def Word.ofChars : List Char → Word
  | ['-', '-'] => endOfOptions
  | '-' :: '-' :: rest =>
    match OptionName.ofWord? (rest.takeWhile (· ≠ '=')) with
    | some name =>
      match rest.dropWhile (· ≠ '=') with
      | [] => option name none
      | _ :: value => option name (some value)
    | none => unknown
  | '-' :: letter :: rest =>
    match OptionName.ofLetter? letter with
    | some name =>
      match rest with
      | [] => option name none
      | '=' :: value => option name (some value)
      | value => option name (some value)
    | none => unknown
  | _ => unknown

/-- Whether a word may be the value of the option before it. -/
def isValue : List Char → Bool
  | '-' :: _ :: _ => false
  | _ => true

/-- The options of a command that has the options in `allowed`. -/
def readOptions? (allowed : List OptionName) (given : Given) : List String → Option Given
  | [] => some given
  | word :: rest =>
    match Word.ofChars word.toList with
    | .unknown => none
    | .endOfOptions => if rest = [] then some given else none
    | .option name value =>
      if allowed.contains name then
        match value, rest with
        | some value, rest => do readOptions? allowed (← given.set? name value) rest
        | none, [] => none
        | none, value :: rest =>
          if isValue value.toList then do
            readOptions? allowed (← given.set? name value.toList) rest
          else none
      else none

/-- The command that the words of a command line give. -/
def Invocation.read? : List String → Option Invocation
  | [] => none
  | command :: rest =>
    if command = "ir" then do
      let given ← readOptions? [.input, .output] [] rest
      return ⟨← given.lookup .input, .interchange (given.lookup .output)⟩
    else if command = "gen-rust" then do
      let given ← readOptions? [.input, .output, .module] [] rest
      return ⟨← given.lookup .input, .generate (given.lookup .output) (given.lookup .module)⟩
    else if command = "info" then do
      let given ← readOptions? [.input] [] rest
      return ⟨← given.lookup .input, .summary⟩
    else none

end SchemaLang.Command
