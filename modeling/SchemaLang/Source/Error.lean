import SchemaLang.Text.Position
import SchemaLang.Text.Quoted

/-!
# Errors in a source

What can be wrong with a schema source before any of its definitions is looked at: a run of
characters that is no token, a token where another one is expected, a name defined twice. Each
error has a place, a stage in which it is found, and a message.
-/

namespace SchemaLang

/-- What a reader of tokens is waiting for. -/
inductive Expectation where
  | definition
  | schemaName
  | pluginName
  | pathSegment
  | asName
  | openingBrace
  | methodOrClosingBrace
  | methodName
  | parametersOrReturns
  | parameters
  | returnsWord
  | results
  | fieldOrClosingBrace
  | fieldName
  | fieldType
  | openingParen
  | optionName
  | equals
  | optionValue
  | commaOrClosingParen
  | openingBracket
  | closingBracket
  | defaultValue
  deriving DecidableEq, Repr

/-- The words for what is expected. -/
def Expectation.describe : Expectation → String
  | definition => "\"schema\" or \"plugin\""
  | schemaName => "schema name"
  | pluginName => "plugin name"
  | pathSegment => "identifier after \".\""
  | asName => "name after \"as\""
  | openingBrace => "\"\x7b\""
  | methodOrClosingBrace => "\"method\" or \"\x7d\""
  | methodName => "method name"
  | parametersOrReturns => "\"\x7b\", parameter type or \"returns\""
  | parameters => "\"\x7b\" or parameter type"
  | returnsWord => "\"returns\""
  | results => "\"\x7b\" or return type"
  | fieldOrClosingBrace => "field name or \"\x7d\""
  | fieldName => "field name"
  | fieldType => "field type"
  | openingParen => "\"(\""
  | optionName => "option name"
  | equals => "\"=\""
  | optionValue => "option value"
  | commaOrClosingParen => "\",\" or \")\""
  | openingBracket => "\"[\""
  | closingBracket => "\"]\""
  | defaultValue => "default value"

/-- The stages of reading a source. -/
inductive Stage where
  | lexing
  | parsing
  | verification
  deriving DecidableEq, Repr

/-- What is wrong with a source. -/
inductive SourceProblem where
  /-- Characters in which no token starts. -/
  | stray (run : String)
  /-- Tokens that do not end with the end of the input. -/
  | unterminated
  /-- A token, or the end of the input, in place of what is expected. -/
  | unexpected (expected : Expectation) (found : Option String)
  /-- An array size that is no positive number of 64 bits. -/
  | arraySize (text : String)
  /-- A name that an earlier definition has. -/
  | definedTwice (name : String)
  deriving DecidableEq, Repr

namespace SourceProblem

/-- The stage in which a problem is found. -/
def stage : SourceProblem → Stage
  | stray _ => .lexing
  | unterminated | unexpected .. | arraySize _ => .parsing
  | definedTwice _ => .verification

/-- The words for a problem. -/
def message : SourceProblem → String
  | stray run => "Unexpected character sequence " ++ Text.quoted run
  | unterminated => "Token stream is not terminated by end of input"
  | unexpected expected found =>
    "Expected " ++ expected.describe ++ " but found " ++
      match found with
      | some text => Text.quoted text
      | none => "end of input"
  | arraySize text =>
    "Array size must be a positive integer but found " ++ Text.quoted text
  | definedTwice name => "The name " ++ Text.quoted name ++ " is defined twice"

end SourceProblem

/-- A problem and its place. -/
structure SourceError where
  problem : SourceProblem
  position : Text.Position
  deriving DecidableEq, Repr

/-- The message of an error with its stage and its place. -/
def SourceError.describe (error : SourceError) : String :=
  let stage :=
    match error.problem.stage with
    | .lexing => "Lexing"
    | .parsing => "Parse"
    | .verification => "Verifier"
  s!"{stage} error at line {error.position.line}, column {error.position.column}: " ++
    error.problem.message

end SchemaLang
