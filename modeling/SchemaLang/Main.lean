import SchemaLang.Command.Run

/-!
# The command

Runs a command line on the file system of the machine.
-/

namespace SchemaLang.Command

/--
The reason for a failed access to a file. The system reports its codes with either sign; the code 20
says that a segment of a path is no folder.
-/
def fileErrorOf : IO.Error → FileError
  | .noFileOrDirectory .. => .notFound
  | .inappropriateType _ code _ => if code = 20 ∨ code + 20 = 0 then .notFolder else .isFolder
  | error => .other (toString error)

/-- The files of the machine. -/
def machineFiles : FileAccess IO where
  read path := do
    match ← (IO.FS.readBinFile path).toBaseIO with
    | .ok content =>
      match String.fromUTF8? content with
      | some text => return .ok text
      | none => return .error .notText
    | .error error => return .error (fileErrorOf error)
  write path text := do
    match ← (IO.FS.writeFile path text).toBaseIO with
    | .ok _ => return .ok ()
    | .error error => return .error (fileErrorOf error)

end SchemaLang.Command

open SchemaLang.Command in
/-- Runs the command line and exits with its code. -/
def main (words : List String) : IO UInt32 := do
  match Invocation.read? words with
  | none =>
    IO.eprintln "Usage: sia <ir | gen-rust | info> -i <FILE> [-o <FILE>] [--module <NAME>]"
    return usageCode.toUInt32
  | some invocation =>
    let outcome ← invocation.run machineFiles
    IO.print outcome.stdout
    IO.eprint outcome.stderr
    return outcome.code.toUInt32
