import SchemaLang.Code.Generate
import SchemaLang.Code.Printer
import SchemaLang.Command.Invocation
import SchemaLang.Definition.Interchange
import SchemaLang.Report.Summary
import SchemaLang.Source.Definitions

/-!
# Running a command

A command reads its input, works out its text, and writes it, in this order: nothing is written
unless all that can fail before has succeeded. How files are read and written is a parameter, so
that the same run serves any file system.
-/

namespace SchemaLang.Command

/-- How the files of a file system are read and written. -/
structure FileAccess (m : Type → Type) where
  read : String → m (Except FileError String)
  write : String → String → m (Except FileError Unit)

/-- What a run shows, and its exit code. -/
structure Outcome where
  code : Nat
  stdout : String
  stderr : String
  deriving DecidableEq, Repr

/-- The exit code of a command line that is no command. -/
def usageCode : Nat := 2

/-- The definitions of a source, with its error as a failure. -/
def definitionsOf (source : String) : Except Failure (List Definition) :=
  match compile source with
  | .ok definitions => .ok definitions
  | .error error => .error (.source error)

/-- The text that an action makes of a source. -/
def Action.text (action : Action) (source : String) : Except Failure String := do
  let definitions ← definitionsOf source
  match action with
  | interchange _ => return Definition.spreadText definitions
  | generate _ module =>
    match Code.fileOf module definitions with
    | .ok file => return file.text
    | .error error => .error (.code error)
  | summary => Failure.ofResolve (Report.describe definitions)

/-- The outcome of a run that fails over a source. -/
def Invocation.failed (invocation : Invocation) (source : String) (failure : Failure) : Outcome :=
  ⟨1, "", Report.render source invocation.input failure ++ "\n"⟩

/-- Runs a command. -/
def Invocation.run {m : Type → Type} [Monad m] (files : FileAccess m) (invocation : Invocation) :
    m Outcome := do
  match ← files.read invocation.input with
  | .error error =>
    return ⟨1, "", "Cannot read " ++ invocation.input ++ ": " ++ error.message ++ "\n"⟩
  | .ok source =>
    match invocation.action.text source with
    | .error failure => return invocation.failed source failure
    | .ok text =>
      match invocation.action.output? with
      | none => return ⟨0, text ++ "\n", ""⟩
      | some path =>
        match ← files.write path text with
        | .ok _ => return ⟨0, "Written to " ++ path ++ "\n", ""⟩
        | .error error => return invocation.failed source (.output error)

end SchemaLang.Command
