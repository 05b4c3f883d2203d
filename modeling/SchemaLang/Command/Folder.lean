import SchemaLang.Command.Run

/-!
# Folders

A folder as a value: files by their paths, and folders, which also exist wherever a file lies in
them. Paths are followed segment by segment from the folder; each segment but the last must lead to
a folder. Nothing outside of the folder is visible.
-/

namespace SchemaLang.Command

-- Contents are compared as the core library does it, also where another instance is in scope.
attribute [local instance (high)] ByteArray.instDecidableEq

/-- What a path leads to. -/
inductive Entry where
  | file (content : ByteArray)
  | folder
  deriving DecidableEq

/-- The entries of a folder by the segments of their paths. -/
structure Folder where
  entries : List (List String × Entry)
  deriving DecidableEq

namespace Folder

/-- What stands at a path of plain segments. -/
def entry? (folder : Folder) (path : List String) : Option Entry :=
  if path = [] then some .folder
  else
    match folder.entries.lookup path with
    | some entry => some entry
    | none =>
      if folder.entries.any fun (other, _) => path.isPrefixOf other then some .folder else none

/-- The longest name that a segment may be, in bytes. -/
def maxNameBytes : Nat := 255

/-- Follows the segments of a path from a place on. -/
def follow (folder : Folder) (place : List String) :
    List String → Except FileError (List String)
  | [] => .ok place
  | segment :: rest =>
    match folder.entry? place with
    | none => .error .notFound
    | some (.file _) => .error .notFolder
    | some .folder =>
      if segment = "" ∨ segment = "." then follow folder place rest
      else if segment = ".." then
        if place = [] then .error .notFound else follow folder place.dropLast rest
      else if maxNameBytes < segment.utf8ByteSize then .error .nameTooLong
      else follow folder (place ++ [segment]) rest

/-- The segments of a path between its slashes. -/
def segments (path : String) : List String := (path.toList.splitOn '/').map String.ofList

/-- Whether a path starts outside of the folder. -/
def isAbsolute (path : String) : Bool := path.toList.head? = some '/'

/-- Whether a path ends in a slash. -/
def endsInSlash (path : String) : Bool := path.toList.getLast? = some '/'

/-- The place that a path leads to. -/
def locate (folder : Folder) (path : String) : Except FileError (List String) :=
  if isAbsolute path then .error .notFound else folder.follow [] (segments path)

/-- The text of a file. -/
def readFile (folder : Folder) (path : String) : Except FileError String := do
  match folder.entry? (← folder.locate path) with
  | none => .error .notFound
  | some .folder => .error .isFolder
  | some (.file content) =>
    match String.fromUTF8? content with
    | some text => .ok text
    | none => .error .notText

/-- The folder with an entry at a place. -/
def withEntry (folder : Folder) (path : List String) (entry : Entry) : Folder :=
  ⟨folder.entries.filter (·.1 ≠ path) ++ [(path, entry)]⟩

/-- The folder with a text in a file, which need not exist before. -/
def writeFile (folder : Folder) (path text : String) : Except FileError Folder :=
  if endsInSlash path then
    (folder.locate (String.ofList (path.toList.reverse.dropWhile (· = '/')).reverse)) >>= fun _ =>
      .error .isFolder
  else do
    let place ← folder.locate path
    match folder.entry? place with
    | some .folder => .error .isFolder
    | _ => .ok (folder.withEntry place (.file text.toUTF8))

/-- The files of a folder that is the state of a run. -/
def access : FileAccess (StateM Folder) where
  read path := do return (← get).readFile path
  write path text := do
    match (← get).writeFile path text with
    | .ok folder =>
      set folder
      return .ok ()
    | .error error => return .error error

/-- Runs a command line in a folder. A command line that is no command shows nothing here. -/
def run (words : List String) (folder : Folder) : Outcome × Folder :=
  match Invocation.read? words with
  | none => (⟨usageCode, "", ""⟩, folder)
  | some invocation => (invocation.run access).run folder

end Folder

end SchemaLang.Command
