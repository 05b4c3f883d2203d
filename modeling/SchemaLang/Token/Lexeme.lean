import SchemaLang.Text.DecimalDigit
import SchemaLang.Text.WhiteSpace
import SchemaLang.Token.Kind

/-!
# Lexemes

A lexeme is the longest stretch of source text of one form: white space, a comment, a string,
a number, a word or a punctuation mark. The forms are tried one after the other, and the first one
that fits is taken. A source is a sequence of segments, each a lexeme or a run of characters in
which no lexeme starts; nothing of the source is lost (`concat_ofText`).
-/

namespace SchemaLang

/-- The forms of lexemes. -/
inductive LexemeForm where
  | blank
  | comment
  | string
  | number
  | word
  | mark
  deriving DecidableEq, Repr

namespace LexemeForm

/-- Whether a character starts a word. -/
def startsWord (c : Char) : Bool := c.isAlpha || c = '_'

/-- Whether a character continues a word. -/
def continuesWord (c : Char) : Bool := c.isAlphanum || c = '_'

/-- Whether a character is a punctuation mark. -/
def isMark (c : Char) : Bool := (TokenKind.ofMark? c).isSome

/--
The length of a string behind its opening quote, with the closing quote. A backslash takes the
next character with it, which must not be a line feed.
-/
def stringLength? : List Char → Option Nat
  | [] => none
  | '"' :: _ => some 1
  | ['\\'] => none
  | '\\' :: c :: rest => if c = '\n' then none else (stringLength? rest).map (· + 2)
  | _ :: rest => (stringLength? rest).map (· + 1)

/-- How many digits a text starts with. -/
def digitCount (cs : List Char) : Nat := (cs.takeWhile Text.isDecimalDigit).length

/-- The length of a number without a sign: digits, and a point if digits follow it. -/
def unsignedLength? (cs : List Char) : Option Nat :=
  let whole := digitCount cs
  if whole = 0 then none
  else
    match cs.drop whole with
    | '.' :: rest =>
      let fraction := digitCount rest
      some (if fraction = 0 then whole else whole + 1 + fraction)
    | _ => some whole

/-- The length of a number, which a minus may precede. -/
def numberLength? : List Char → Option Nat
  | '-' :: rest => (unsignedLength? rest).map (· + 1)
  | cs => unsignedLength? cs

/-- The length of a string with both quotes. -/
def quotedLength? : List Char → Option Nat
  | '"' :: rest => (stringLength? rest).map (· + 1)
  | _ => none

/-- The length of a comment: two slashes and the rest of the line. -/
def commentLength? : List Char → Option Nat
  | '/' :: '/' :: rest => some (2 + (rest.takeWhile (· ≠ '\n')).length)
  | _ => none

/-- The length of a first character of one class and the characters of another that follow it. -/
def runLength? (first others : Char → Bool) : List Char → Option Nat
  | [] => none
  | c :: rest => if first c then some (1 + (rest.takeWhile others).length) else none

/-- The length of the lexeme of a form that a text starts with. -/
def length? : LexemeForm → List Char → Option Nat
  | blank => runLength? Text.isWhiteSpace Text.isWhiteSpace
  | comment => commentLength?
  | string => quotedLength?
  | number => numberLength?
  | word => runLength? startsWord continuesWord
  | mark => runLength? isMark fun _ => false

/-- The forms in the order in which they are tried. -/
def all : List LexemeForm := [blank, comment, string, number, word, mark]

/-- The lexeme that a text starts with, of the first form that fits: its form and its length. -/
def lexeme? (cs : List Char) : Option (LexemeForm × Nat) :=
  all.findSome? fun form => (form.length? cs).map (form, ·)

/-- The number of characters before the next lexeme. -/
def strayLength : List Char → Nat
  | [] => 0
  | c :: rest => if (lexeme? (c :: rest)).isSome then 0 else strayLength rest + 1

theorem runLength?_eq_some {first others : Char → Bool} {cs : List Char} {n : Nat} :
    runLength? first others cs = some n ↔
      ∃ c rest, cs = c :: rest ∧ first c = true ∧ 1 + (rest.takeWhile others).length = n := by
  constructor
  · intro h
    unfold runLength? at h
    split at h
    case h_1 => cases h
    case h_2 c rest =>
      split at h
      case isTrue hc => exact ⟨c, rest, rfl, hc, Option.some.inj h⟩
      case isFalse => cases h
  · rintro ⟨c, rest, rfl, hc, rfl⟩
    rw [runLength?, if_pos hc]

theorem commentLength?_eq_some {cs : List Char} {n : Nat} :
    commentLength? cs = some n ↔
      ∃ body, cs = '/' :: '/' :: body ∧ 2 + (body.takeWhile (· ≠ '\n')).length = n := by
  unfold commentLength?
  split
  case h_1 body => simp
  case h_2 hshort =>
    exact iff_of_false (Option.some_ne_none n ∘ Eq.symm) fun ⟨body, heq, _⟩ => hshort body heq

theorem quotedLength?_eq_some {cs : List Char} {n : Nat} :
    quotedLength? cs = some n ↔
      ∃ rest m, cs = '"' :: rest ∧ stringLength? rest = some m ∧ m + 1 = n := by
  unfold quotedLength?
  split
  case h_1 rest => simp
  case h_2 hquote =>
    exact iff_of_false (Option.some_ne_none n ∘ Eq.symm) fun ⟨rest, _, heq, _⟩ => hquote rest heq

theorem isDecimalDigit_of_unsignedLength? {c : Char} {rest : List Char} {n : Nat}
    (h : unsignedLength? (c :: rest) = some n) : Text.isDecimalDigit c = true := by
  cases hc : Text.isDecimalDigit c with
  | true => rfl
  | false => simp [unsignedLength?, digitCount, hc] at h

theorem numberLength?_eq_some {cs : List Char} {n : Nat} :
    numberLength? cs = some n ↔ unsignedLength? cs = some n ∨
      ∃ rest m, cs = '-' :: rest ∧ unsignedLength? rest = some m ∧ m + 1 = n := by
  unfold numberLength?
  split
  case h_1 rest =>
    have hminus : unsignedLength? ('-' :: rest) ≠ some n := fun h =>
      absurd (isDecimalDigit_of_unsignedLength? h) (by decide)
    simp [hminus]
  case h_2 hminus =>
    have hnone : ¬∃ rest m, cs = '-' :: rest ∧ unsignedLength? rest = some m ∧ m + 1 = n :=
      fun ⟨rest, _, heq, _⟩ => hminus rest heq
    rw [or_iff_left hnone]

theorem unsignedLength?_pos {cs : List Char} {n : Nat} (h : unsignedLength? cs = some n) :
    0 < n := by
  simp only [unsignedLength?] at h
  split at h
  · simp at h
  · split at h <;> simp only [Option.some.injEq] at h
    · split at h <;> omega
    · omega

theorem length?_pos {form : LexemeForm} {cs : List Char} {n : Nat} (h : form.length? cs = some n) :
    0 < n := by
  cases form with
  | blank | word | mark =>
    obtain ⟨c, rest, -, -, rfl⟩ := runLength?_eq_some.1 h
    omega
  | comment =>
    obtain ⟨body, -, rfl⟩ := commentLength?_eq_some.1 h
    omega
  | string =>
    obtain ⟨rest, m, -, -, rfl⟩ := quotedLength?_eq_some.1 h
    exact Nat.succ_pos m
  | number =>
    obtain hunsigned | ⟨rest, m, -, -, rfl⟩ := numberLength?_eq_some.1 h
    · exact unsignedLength?_pos hunsigned
    · exact Nat.succ_pos m

theorem length?_of_lexeme? {cs : List Char} {form : LexemeForm} {n : Nat}
    (h : lexeme? cs = some (form, n)) : form.length? cs = some n := by
  obtain ⟨tried, -, htried⟩ := List.exists_of_findSome?_eq_some h
  obtain ⟨m, hm, heq⟩ := Option.map_eq_some_iff.1 htried
  cases heq
  exact hm

theorem lexeme?_pos {cs : List Char} {form : LexemeForm} {n : Nat}
    (h : lexeme? cs = some (form, n)) : 0 < n :=
  length?_pos (length?_of_lexeme? h)

theorem strayLength_pos {c : Char} {rest : List Char} (h : lexeme? (c :: rest) = none) :
    0 < strayLength (c :: rest) := by
  simp [strayLength, h]

end LexemeForm

/-- A stretch of a source: a lexeme, or characters in which no lexeme starts. -/
inductive Segment where
  | lexeme (form : LexemeForm) (text : List Char)
  | stray (text : List Char)
  deriving DecidableEq, Repr

namespace Segment

/-- The characters of a segment. -/
def text : Segment → List Char
  | lexeme _ text => text
  | stray text => text

/-- The segments of a source from left to right. -/
def ofText : List Char → List Segment
  | [] => []
  | c :: rest =>
    match h : LexemeForm.lexeme? (c :: rest) with
    | some (form, n) =>
      have := LexemeForm.lexeme?_pos h
      lexeme form ((c :: rest).take n) :: ofText ((c :: rest).drop n)
    | none =>
      have := LexemeForm.strayLength_pos h
      stray ((c :: rest).take (LexemeForm.strayLength (c :: rest))) ::
        ofText ((c :: rest).drop (LexemeForm.strayLength (c :: rest)))
termination_by cs => cs.length
decreasing_by all_goals simp only [List.length_drop, List.length_cons]; omega

/-- The characters of segments. -/
def concat (segments : List Segment) : List Char := segments.flatMap text

@[simp] theorem concat_nil : concat [] = [] := rfl

@[simp] theorem concat_cons (segment : Segment) (rest : List Segment) :
    concat (segment :: rest) = segment.text ++ concat rest := rfl

@[simp] theorem concat_append (front back : List Segment) :
    concat (front ++ back) = concat front ++ concat back := List.flatMap_append

theorem concat_ofText (source : List Char) : concat (ofText source) = source := by
  fun_induction ofText source with
  | case1 => rfl
  | case2 c rest form n h hpos ih =>
    rw [concat_cons, ih]
    exact List.take_append_drop n (c :: rest)
  | case3 c rest h hpos ih =>
    rw [concat_cons, ih]
    exact List.take_append_drop _ (c :: rest)

end Segment

end SchemaLang
