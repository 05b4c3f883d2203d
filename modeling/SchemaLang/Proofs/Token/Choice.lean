import Mathlib.Data.List.TakeWhile
import SchemaLang.Token.Lexeme

/-!
# The choice of a form

The forms of lexemes are told apart by their first characters, so a text starts with a lexeme of one
form at most. The order in which the forms are tried does not matter then: what is read is the
lexeme of any form that fits (`lexeme?_iff_length?`), and it is the one of the form that the first
character tells (`lexeme?_cons`).
-/

namespace SchemaLang.LexemeForm

/-! ## Classes of characters -/

theorem toNat_of_startsWord {c : Char} (h : startsWord c = true) :
    65 ≤ c.toNat ∧ c.toNat < 123 := by
  have halpha : c.isAlpha = (c.isUpper || c.isLower) := rfl
  have hupper : c.isUpper = decide ('A'.val ≤ c.val ∧ c.val ≤ 'Z'.val) := rfl
  have hlower : c.isLower = (decide ('a'.val ≤ c.val) && decide (c.val ≤ 'z'.val)) := rfl
  simp only [startsWord, halpha, hupper, hlower, Bool.or_eq_true, Bool.and_eq_true,
    decide_eq_true_eq, UInt32.le_iff_toNat_le] at h
  have hvalue : c.toNat = c.val.toNat := rfl
  rcases h with (⟨hlow, hhigh⟩ | ⟨hlow, hhigh⟩) | rfl
  · have : 65 ≤ c.val.toNat := hlow
    have : c.val.toNat ≤ 90 := hhigh
    omega
  · have : 97 ≤ c.val.toNat := hlow
    have : c.val.toNat ≤ 122 := hhigh
    omega
  · decide

/-- A character that starts a word belongs to no class that leaves out the codes of letters. -/
theorem inRanges_of_startsWord {c : Char} {ranges : List (Nat × Nat)} (h : startsWord c = true)
    (hranges : ∀ code < 123, 65 ≤ code → Text.inRanges ranges code = false) :
    Text.inRanges ranges c.toNat = false :=
  hranges c.toNat (toNat_of_startsWord h).2 (toNat_of_startsWord h).1

theorem not_isWhiteSpace_of_startsWord {c : Char} (h : startsWord c = true) :
    Text.isWhiteSpace c = false :=
  inRanges_of_startsWord h (by decide)

theorem not_isDecimalDigit_of_startsWord {c : Char} (h : startsWord c = true) :
    Text.isDecimalDigit c = false :=
  inRanges_of_startsWord h (by decide)

theorem continuesWord_of_startsWord {c : Char} (h : startsWord c = true) :
    continuesWord c = true := by
  simp only [startsWord, continuesWord, Char.isAlphanum, Bool.or_eq_true] at h ⊢
  exact h.imp_left Or.inl

theorem ne_of_startsWord {c d : Char} (h : startsWord c = true) (hd : startsWord d = false) :
    c ≠ d := by
  rintro rfl
  rw [h] at hd
  cases hd

theorem toNat_of_continuesWord {c : Char} (h : continuesWord c = true) :
    48 ≤ c.toNat ∧ c.toNat < 123 := by
  by_cases hstart : startsWord c = true
  · have hcode := toNat_of_startsWord hstart
    omega
  · simp only [continuesWord, startsWord, Char.isAlphanum, Char.isDigit, Bool.or_eq_true,
      Bool.and_eq_true, decide_eq_true_eq, UInt32.le_iff_toNat_le, ge_iff_le] at h hstart
    have hdigit : 48 ≤ c.val.toNat ∧ c.val.toNat ≤ 57 := by
      rcases h with (halpha | hdigit) | hunder
      · exact absurd (.inl halpha) hstart
      · exact hdigit
      · exact absurd (.inr hunder) hstart
    have hvalue : c.toNat = c.val.toNat := rfl
    omega

/-- The codes of white space, one by one. -/
def whiteSpaceCodes : List Nat :=
  List.range' 0x09 5 ++ [0x20, 0x85, 0xA0, 0x1680] ++ List.range' 0x2000 11 ++
    [0x2028, 0x2029, 0x202F, 0x205F, 0x3000]

theorem toNat_of_isWhiteSpace {c : Char} (h : Text.isWhiteSpace c = true) :
    c.toNat ∈ whiteSpaceCodes := by
  simp only [Text.isWhiteSpace, Text.whiteSpaceRanges, Text.inRanges, Bool.and_eq_true,
    Bool.or_eq_true, Bool.not_eq_true', decide_eq_true_eq, decide_eq_false_iff_not,
    Bool.false_eq_true, or_false] at h
  simp only [whiteSpaceCodes, List.mem_append, List.mem_range'_1, List.mem_cons, List.not_mem_nil,
    or_false]
  omega

theorem not_isDecimalDigit_of_isWhiteSpace {c : Char} (h : Text.isWhiteSpace c = true) :
    Text.isDecimalDigit c = false := by
  have hcodes : ∀ code ∈ whiteSpaceCodes,
      Text.inRanges Text.decimalDigitRanges code = false := by
    decide
  exact hcodes c.toNat (toNat_of_isWhiteSpace h)

theorem not_continuesWord_of_isWhiteSpace {c : Char} (h : Text.isWhiteSpace c = true) :
    continuesWord c = false := by
  have hcodes : ∀ code ∈ whiteSpaceCodes, ¬(48 ≤ code ∧ code < 123) := by
    decide
  by_contra hword
  have hcode := toNat_of_continuesWord (Bool.of_not_eq_false hword)
  exact hcodes c.toNat (toNat_of_isWhiteSpace h) hcode

/-- The ten punctuation marks. -/
def marks : List Char := ['=', '?', '{', '}', '(', ')', '[', ']', ',', '.']

theorem isMark_iff {c : Char} : isMark c = true ↔ c ∈ marks := by
  constructor
  · intro h
    unfold isMark TokenKind.ofMark? at h
    split at h
    case h_11 => cases h
    all_goals decide
  · intro h
    have hall : marks.all isMark = true := by decide
    exact List.all_eq_true.1 hall c h

/-! ## The form that a character tells -/

/-- The form of a lexeme that starts with a character. -/
def ofHead (c : Char) : LexemeForm :=
  if Text.isWhiteSpace c then blank
  else if c = '/' then comment
  else if c = '"' then string
  else if startsWord c then word
  else if isMark c then mark
  else number

theorem ofHead_eq_blank {c : Char} : ofHead c = blank ↔ Text.isWhiteSpace c = true := by
  unfold ofHead
  split_ifs with hblank
  · exact iff_of_true rfl hblank
  all_goals exact iff_of_false (by decide) hblank

theorem ofHead_eq_mark {c : Char} (h : ofHead c = mark) : isMark c = true := by
  unfold ofHead at h
  split_ifs at h with _ _ _ _ hmark
  exact hmark

theorem ofHead_of_isDecimalDigit {c : Char} (h : Text.isDecimalDigit c = true) :
    ofHead c = number := by
  have hblank : Text.isWhiteSpace c ≠ true := fun hblank ↦ by
    rw [not_isDecimalDigit_of_isWhiteSpace hblank] at h
    cases h
  have hword : startsWord c ≠ true := fun hword ↦ by
    rw [not_isDecimalDigit_of_startsWord hword] at h
    cases h
  have hmark : isMark c ≠ true := fun hmark ↦ by
    have hmarks : marks.any Text.isDecimalDigit = false := by decide
    rw [List.any_eq_false] at hmarks
    exact hmarks c (isMark_iff.1 hmark) h
  have hslash : c ≠ '/' := by
    rintro rfl
    exact absurd h (by decide)
  have hquote : c ≠ '"' := by
    rintro rfl
    exact absurd h (by decide)
  rw [ofHead, if_neg hblank, if_neg hslash, if_neg hquote, if_neg hword, if_neg hmark]

theorem ofHead_of_startsWord {c : Char} (h : startsWord c = true) : ofHead c = word := by
  have hblank : Text.isWhiteSpace c ≠ true := ne_true_of_eq_false (not_isWhiteSpace_of_startsWord h)
  have hslash : c ≠ '/' := ne_of_startsWord h (by decide)
  have hquote : c ≠ '"' := ne_of_startsWord h (by decide)
  rw [ofHead, if_neg hblank, if_neg hslash, if_neg hquote, if_pos h]

theorem ofHead_of_isMark {c : Char} (h : isMark c = true) : ofHead c = mark := by
  have hmarks : marks.all (fun d ↦ ofHead d = mark) = true := by decide
  exact of_decide_eq_true (List.all_eq_true.1 hmarks c (isMark_iff.1 h))

/-! ## The choice -/

theorem mem_all (form : LexemeForm) : form ∈ all := by
  cases form <;> decide

theorem length?_nil (form : LexemeForm) : form.length? [] = none := by
  cases form <;> rfl

/-- A text starts with a lexeme of the form that its first character tells, or with none. -/
theorem eq_ofHead_of_length? {form : LexemeForm} {c : Char} {rest : List Char} {n : Nat}
    (h : form.length? (c :: rest) = some n) : form = ofHead c := by
  have hfirst {first others : Char → Bool} (h : runLength? first others (c :: rest) = some n) :
      first c = true := by
    obtain ⟨_, _, heq, hc, -⟩ := runLength?_eq_some.1 h
    rwa [← (List.cons.inj heq).1] at hc
  cases form with
  | blank => exact (ofHead_eq_blank.2 (hfirst h)).symm
  | word => exact (ofHead_of_startsWord (hfirst h)).symm
  | mark => exact (ofHead_of_isMark (hfirst h)).symm
  | comment =>
    obtain ⟨_, heq, -⟩ := commentLength?_eq_some.1 h
    obtain ⟨rfl, -⟩ := List.cons.inj heq
    decide
  | string =>
    obtain ⟨_, _, heq, -⟩ := quotedLength?_eq_some.1 h
    obtain ⟨rfl, -⟩ := List.cons.inj heq
    decide
  | number =>
    obtain hunsigned | ⟨_, _, heq, -⟩ := numberLength?_eq_some.1 h
    · exact (ofHead_of_isDecimalDigit (isDecimalDigit_of_unsignedLength? hunsigned)).symm
    · obtain ⟨rfl, -⟩ := List.cons.inj heq
      decide

/-- The forms exclude each other, so what is read is the lexeme of whichever form fits. -/
theorem lexeme?_iff_length? {form : LexemeForm} {text : List Char} {n : Nat} :
    lexeme? text = some (form, n) ↔ form.length? text = some n := by
  refine ⟨length?_of_lexeme?, fun h ↦ ?_⟩
  cases hread : lexeme? text with
  | none =>
    have hnone := List.findSome?_eq_none_iff.1 hread form (mem_all form)
    rw [h] at hnone
    cases hnone
  | some read =>
    obtain ⟨other, m⟩ := read
    have hother := length?_of_lexeme? hread
    cases text with
    | nil =>
      rw [length?_nil] at h
      cases h
    | cons c rest =>
      obtain rfl : other = form := (eq_ofHead_of_length? hother).trans (eq_ofHead_of_length? h).symm
      rw [h] at hother
      cases hother
      rfl

/-- To try all forms is to try the one that the first character tells. -/
theorem lexeme?_cons (c : Char) (rest : List Char) :
    lexeme? (c :: rest) = ((ofHead c).length? (c :: rest)).map (ofHead c, ·) := by
  ext ⟨form, n⟩
  rw [lexeme?_iff_length?, Option.map_eq_some_iff]
  constructor
  · intro h
    obtain rfl := eq_ofHead_of_length? h
    exact ⟨n, h, rfl⟩
  · rintro ⟨m, hm, heq⟩
    cases heq
    exact hm

/-- A lexeme has the form that its first character tells. -/
theorem exists_cons_of_lexeme? {text : List Char} {form : LexemeForm} {n : Nat}
    (h : lexeme? text = some (form, n)) : ∃ c rest, text = c :: rest ∧ form = ofHead c := by
  have hlength := lexeme?_iff_length?.1 h
  cases text with
  | nil =>
    rw [length?_nil] at hlength
    cases hlength
  | cons c rest => exact ⟨c, rest, rfl, eq_ofHead_of_length? hlength⟩

end SchemaLang.LexemeForm
