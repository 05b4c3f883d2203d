import SchemaLang.Text.Lines

/-!
# Excerpts of a source

The lines around a place in a source, as they are shown with an error: the line of the place, up to
two lines before it, and a caret below the column.
-/

namespace SchemaLang.Report

/-- How many lines an excerpt has at most. -/
def excerptLines : Nat := 3

/-- The lines that end with a given one, at most as many as an excerpt has. -/
def linesUpTo (source : List Char) (line : Nat) : List (List Char) :=
  let lines := Text.lines source
  let stop := min line lines.length
  (lines.take stop).drop (stop - excerptLines)

/-- The excerpt for a line and a column. -/
def excerpt (source : String) (line column : Nat) : String :=
  String.ofList <|
    List.intercalate ['\n'] (linesUpTo source.toList line) ++
      '\n' :: (List.replicate (column - 1) ' ' ++ ['^'])

end SchemaLang.Report
