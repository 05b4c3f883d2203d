import SchemaLang.Text.Visible

/-!
# String literals of generated code

A text between double quotes as generated code and the messages about definitions show it. The
quote, the backslash, the line feed, the carriage return, the tab and the null character have
escapes of their own. A character that cannot be shown by itself is written by its code point in
hexadecimal digits between braces.
-/

namespace SchemaLang.Text.Literal

/-- A character by its code point. -/
def byNumber (c : Char) : List Char :=
  ['\\', 'u', '{'] ++ Nat.toDigits 16 c.toNat ++ ['}']

/-- How one character is written between the quotes. -/
def escape (c : Char) : List Char :=
  if c = '"' then ['\\', '"']
  else if c = '\\' then ['\\', '\\']
  else if c = '\n' then ['\\', 'n']
  else if c = '\r' then ['\\', 'r']
  else if c = '\t' then ['\\', 't']
  else if c.toNat = 0 then ['\\', '0']
  else if isExtending c || isHidden c then byNumber c
  else [c]

end SchemaLang.Text.Literal

namespace SchemaLang.Text

/-- A text as a string literal. -/
def literal (text : String) : String :=
  String.ofList ('"' :: (text.toList.flatMap Literal.escape ++ ['"']))

end SchemaLang.Text
