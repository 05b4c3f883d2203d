/-!
# Quoted text

A text between double quotes, in the notation of JSON strings. Writing escapes the quote, the
backslash and the control characters below the space, and leaves all else as it is. Reading also
knows the escapes that writing never uses: the solidus, and any character by its UTF-16 code, where
a character beyond the basic plane takes two codes and half of such a pair is refused.
-/

namespace SchemaLang.Text.Quoted

/-- The hexadecimal digit of a number below sixteen. -/
def hexDigit (n : Nat) : Char := Char.ofNat (if n < 10 then 48 + n else 87 + n)

/-- The value of a hexadecimal digit in either letter case. -/
def hexValue? (c : Char) : Option Nat :=
  if '0' ≤ c ∧ c ≤ '9' then some (c.toNat - 48)
  else if 'a' ≤ c ∧ c ≤ 'f' then some (c.toNat - 87)
  else if 'A' ≤ c ∧ c ≤ 'F' then some (c.toNat - 55)
  else none

/-- How one character is written between the quotes. -/
def escape (c : Char) : List Char :=
  if c = '"' then ['\\', '"']
  else if c = '\\' then ['\\', '\\']
  else if c = '\n' then ['\\', 'n']
  else if c = '\r' then ['\\', 'r']
  else if c = '\t' then ['\\', 't']
  else if c.toNat = 8 then ['\\', 'b']
  else if c.toNat = 12 then ['\\', 'f']
  else if c.toNat < 32 then
    ['\\', 'u', '0', '0', hexDigit (c.toNat / 16), hexDigit (c.toNat % 16)]
  else [c]

/-- A text with its quotes. -/
def encode (text : List Char) : List Char := '"' :: (text.flatMap escape ++ ['"'])

/-- The character that a backslash and a letter stand for. -/
def simpleEscape? : Char → Option Char
  | '"' => some '"'
  | '\\' => some '\\'
  | '/' => some '/'
  | 'b' => some (Char.ofNat 8)
  | 'f' => some (Char.ofNat 12)
  | 'n' => some '\n'
  | 'r' => some '\r'
  | 't' => some '\t'
  | _ => none

/-- The value of four hexadecimal digits. -/
def code? (a b c d : Char) : Option Nat := do
  let a ← hexValue? a
  let b ← hexValue? b
  let c ← hexValue? c
  let d ← hexValue? d
  return ((a * 16 + b) * 16 + c) * 16 + d

/--
The character that starts with the UTF-16 code `code`, and the text behind it. The second half of
a pair is read from `rest`.
-/
def fromCode? (code : Nat) (rest : List Char) : Option (Char × List Char) :=
  if code < 0xD800 ∨ 0xDFFF < code then some (Char.ofNat code, rest)
  else if 0xDBFF < code then none
  else
    match rest with
    | '\\' :: 'u' :: a :: b :: c :: d :: rest => do
      let low ← code? a b c d
      if 0xDC00 ≤ low ∧ low ≤ 0xDFFF then
        return (Char.ofNat (0x10000 + (code - 0xD800) * 0x400 + (low - 0xDC00)), rest)
      else none
    | _ => none

/--
The first character between the quotes and the text behind it. A quote, a control character below
the space and a malformed escape are none.
-/
def readChar? : List Char → Option (Char × List Char)
  | '\\' :: 'u' :: a :: b :: c :: d :: rest => do fromCode? (← code? a b c d) rest
  | '\\' :: c :: rest => do return (← simpleEscape? c, rest)
  | '\\' :: [] => none
  | c :: rest => if c = '"' ∨ c.toNat < 32 then none else some (c, rest)
  | [] => none

theorem length_le_of_fromCode? {code : Nat} {cs rest : List Char} {c : Char}
    (h : fromCode? code cs = some (c, rest)) : rest.length ≤ cs.length := by
  unfold fromCode? at h
  split at h
  · simp_all
  · split at h
    · simp at h
    · split at h
      · simp only [Option.bind_eq_bind, Option.bind_eq_some_iff] at h
        obtain ⟨low, -, h⟩ := h
        split at h
        · simp only [Option.pure_def, Option.some.injEq, Prod.mk.injEq] at h
          simp [← h.2]
          omega
        · simp at h
      · simp at h

theorem length_lt_of_readChar? {cs rest : List Char} {c : Char}
    (h : readChar? cs = some (c, rest)) : rest.length < cs.length := by
  unfold readChar? at h
  split at h
  · simp only [Option.bind_eq_bind, Option.bind_eq_some_iff] at h
    obtain ⟨code, -, h⟩ := h
    have := length_le_of_fromCode? h
    simp only [List.length_cons]
    omega
  · simp only [Option.bind_eq_bind, Option.bind_eq_some_iff] at h
    obtain ⟨found, -, h⟩ := h
    simp only [Option.pure_def, Option.some.injEq, Prod.mk.injEq] at h
    simp only [← h.2, List.length_cons]
    omega
  · simp at h
  · split at h
    · simp at h
    · simp only [Option.some.injEq, Prod.mk.injEq] at h
      simp [← h.2]
  · simp at h

/--
Reads a quoted text up to its closing quote. The text behind the opening quote is given, and the
text behind the closing quote is handed on.
-/
def decode? (cs : List Char) : Option (List Char × List Char) :=
  if cs.head? = some '"' then some ([], cs.tail)
  else
    match h : readChar? cs with
    | none => none
    | some (c, rest) =>
      have := length_lt_of_readChar? h
      (decode? rest).map fun (text, rest) => (c :: text, rest)
termination_by cs.length

end SchemaLang.Text.Quoted

namespace SchemaLang.Text

/-- A text as it is quoted in messages. -/
def quoted (text : String) : String := String.ofList (Quoted.encode text.toList)

/-- A quoted text without its two quotes; a text without them as it is. Escapes are kept. -/
def unquoted (text : String) : String :=
  match text.toList with
  | '"' :: rest =>
    match rest.getLast? with
    | some '"' => String.ofList rest.dropLast
    | _ => text
  | _ => text

end SchemaLang.Text
