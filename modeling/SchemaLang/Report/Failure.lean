import SchemaLang.Code.Error
import SchemaLang.Report.Excerpt
import SchemaLang.Source.Error

/-!
# Reports of failures

All that can make a run fail, and how it is shown: an error in the source with an excerpt, any other
failure on one line.
-/

namespace SchemaLang

/-- Why a file cannot be read or written. -/
inductive FileError where
  | notFound
  | notFolder
  | isFolder
  | nameTooLong
  | notText
  | other (reason : String)
  deriving DecidableEq, Repr

/-- The words for a failed access to a file. -/
def FileError.message : FileError → String
  | notFound => "No such file or directory (os error 2)"
  | notFolder => "Not a directory (os error 20)"
  | isFolder => "Is a directory (os error 21)"
  | nameTooLong => "File name too long (os error 36)"
  | notText => "stream did not contain valid UTF-8"
  | other reason => reason

/-- Why a run fails. -/
inductive Failure where
  | source (error : SourceError)
  | code (error : CodeError)
  | output (error : FileError)
  deriving DecidableEq

namespace Failure

/-- A resolution, with its error as a failure. -/
def ofResolve {α : Type} : Except ResolveError α → Except Failure α
  | .ok value => .ok value
  | .error error => .error (code (.resolve error))

/-- The words for a failure on one line. -/
def message : Failure → String
  | source error => error.describe
  | code error => error.message
  | output error => "I/O error: " ++ error.message

end Failure

namespace Report

/-- The name of a stage at the head of a report. -/
def stageName : Stage → String
  | .lexing => "Lexing"
  | .parsing => "Parsing"
  | .verification => "Verification"

/-- The report of a failure over a source in a file. -/
def render (source filename : String) : Failure → String
  | .source error =>
    let line := error.position.line
    let column := error.position.column
    s!"{stageName error.problem.stage} error in {filename} at line {line}:{column}\n\n" ++
      excerpt source line column ++ "\n\n" ++ error.problem.message
  | failure => "Error in " ++ filename ++ ": " ++ failure.message

end Report

end SchemaLang
