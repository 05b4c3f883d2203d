import SchemaLang.Text.CodePoints

/-!
# White space

The characters with the Unicode property `White_Space`. They separate the words of a schema
source. The statement `isWhiteSpace_of_isWhitespace` says that the four blanks known to the core
library are among them.
-/

namespace SchemaLang.Text

/-- Code points with the property `White_Space`. -/
def whiteSpaceRanges : List (Nat × Nat) :=
  [(0x09, 0x0D), (0x20, 0x20), (0x85, 0x85), (0xA0, 0xA0), (0x1680, 0x1680), (0x2000, 0x200A),
  (0x2028, 0x2029), (0x202F, 0x202F), (0x205F, 0x205F), (0x3000, 0x3000)]

/-- Whether a character separates words. -/
def isWhiteSpace (c : Char) : Bool := inRanges whiteSpaceRanges c.toNat

theorem isWhiteSpace_of_isWhitespace {c : Char} (h : c.isWhitespace = true) :
    isWhiteSpace c = true := by
  simp only [Char.isWhitespace, Bool.or_eq_true, decide_eq_true_eq] at h
  rcases h with ((rfl | rfl) | rfl) | rfl <;> decide

end SchemaLang.Text
