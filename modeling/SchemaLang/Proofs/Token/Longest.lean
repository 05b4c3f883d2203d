import SchemaLang.Proofs.Token.Boundary

/-!
# Longest lexemes

What the lexemes of a source look like is said here form by form, apart from how they are read
(`IsLexeme`). The lexeme that is read at the start of a text is the longest one that starts there,
and none is read only if none starts there (`lexeme?_eq_some_iff`, `lexeme?_eq_none_iff`).
-/

namespace SchemaLang.LexemeForm

/-! ## The texts of each form -/

/-- Characters between quotes. A backslash takes the next character with it. -/
inductive IsQuotable : List Char → Prop
  | nil : IsQuotable []
  | plain {c : Char} {rest : List Char} (hquote : c ≠ '"') (hbackslash : c ≠ '\\')
      (behind : IsQuotable rest) : IsQuotable (c :: rest)
  | escape {c : Char} {rest : List Char} (hline : c ≠ '\n') (behind : IsQuotable rest) :
      IsQuotable ('\\' :: c :: rest)

/-- Some decimal digits. -/
def IsDigits (text : List Char) : Prop := text ≠ [] ∧ ∀ c ∈ text, Text.isDecimalDigit c = true

/-- A number without a sign: digits, perhaps with a point and digits behind them. -/
inductive IsUnsigned : List Char → Prop
  | whole {digits : List Char} (h : IsDigits digits) : IsUnsigned digits
  | fraction {digits places : List Char} (hdigits : IsDigits digits) (hplaces : IsDigits places) :
      IsUnsigned (digits ++ '.' :: places)

/-- The texts that are lexemes of a form. -/
inductive IsLexeme : LexemeForm → List Char → Prop
  | blank {text : List Char} (hne : text ≠ []) (h : ∀ c ∈ text, Text.isWhiteSpace c = true) :
      IsLexeme blank text
  | comment {body : List Char} (h : '\n' ∉ body) : IsLexeme comment ('/' :: '/' :: body)
  | string {body : List Char} (h : IsQuotable body) : IsLexeme string ('"' :: (body ++ ['"']))
  | number {text : List Char} (h : IsUnsigned text) : IsLexeme number text
  | negative {text : List Char} (h : IsUnsigned text) : IsLexeme number ('-' :: text)
  | word {c : Char} {rest : List Char} (hstart : startsWord c = true)
      (hrest : ∀ d ∈ rest, continuesWord d = true) : IsLexeme word (c :: rest)
  | mark {c : Char} (h : c ∈ marks) : IsLexeme mark [c]

/-! ## Strings -/

theorem exists_quotable_of_stringLength? {text : List Char} {n : Nat}
    (h : stringLength? text = some n) : ∃ body, text.take n = body ++ ['"'] ∧ IsQuotable body := by
  fun_induction stringLength? text generalizing n with
  | case1 | case3 | case4 => cases h
  | case2 rest =>
    cases h
    exact ⟨[], rfl, .nil⟩
  | case5 c rest hline ih =>
    obtain ⟨m, hm, rfl⟩ := Option.map_eq_some_iff.1 h
    obtain ⟨body, htake, hbody⟩ := ih hm
    exact ⟨'\\' :: c :: body, by rw [List.take_succ_cons, List.take_succ_cons, htake]; rfl,
      .escape hline hbody⟩
  | case6 c rest hquote hend hescape ih =>
    obtain ⟨m, hm, rfl⟩ := Option.map_eq_some_iff.1 h
    obtain ⟨body, htake, hbody⟩ := ih hm
    have hbackslash : c ≠ '\\' := by
      rintro rfl
      cases rest with
      | nil => exact hend rfl rfl
      | cons d rest => exact hescape d rest rfl rfl
    exact ⟨c :: body, by rw [List.take_succ_cons, htake]; rfl, .plain hquote hbackslash hbody⟩

/-- A string ends with the first quote that no backslash takes. -/
theorem IsQuotable.stringLength?_append {body : List Char} (h : IsQuotable body)
    (rest : List Char) : stringLength? (body ++ '"' :: rest) = some (body.length + 1) := by
  induction h with
  | nil => rfl
  | @plain c body hquote hbackslash _ ih =>
    rw [List.cons_append, stringLength?.eq_5, ih]
    · rfl
    · exact hquote
    · exact fun heq _ ↦ hbackslash heq
    · exact fun _ _ heq _ ↦ hbackslash heq
  | @escape c body hline _ ih =>
    rw [List.cons_append, List.cons_append, stringLength?, if_neg hline, ih]
    rfl

/-! ## Numbers -/

theorem take_digitCount (text : List Char) :
    text.take (digitCount text) = text.takeWhile Text.isDecimalDigit :=
  (List.prefix_iff_eq_take.1 (List.takeWhile_prefix _)).symm

theorem isDigits_take {text : List Char} (h : digitCount text ≠ 0) :
    IsDigits (text.take (digitCount text)) := by
  rw [take_digitCount]
  exact ⟨fun hnil ↦ h (List.length_eq_zero_iff.2 hnil), fun c hc ↦ List.mem_takeWhile_imp hc⟩

theorem IsDigits.digitCount_append {digits : List Char} (h : IsDigits digits) (rest : List Char) :
    digitCount (digits ++ rest) = digits.length + digitCount rest := by
  rw [digitCount, List.takeWhile_append_of_pos h.2, List.length_append, digitCount]

theorem IsDigits.length_pos {digits : List Char} (h : IsDigits digits) : 0 < digits.length :=
  List.length_pos_iff.2 h.1

theorem isUnsigned_of_unsignedLength? {text : List Char} {n : Nat}
    (h : unsignedLength? text = some n) : IsUnsigned (text.take n) := by
  rw [unsignedLength?_eq] at h
  split_ifs at h with hcount
  cases h
  have hdigits := isDigits_take hcount
  rw [List.take_add]
  generalize text.drop (digitCount text) = rest
  unfold fractionLength
  split
  case h_1 places =>
    split_ifs with hplaces
    · rw [List.take_zero, List.append_nil]
      exact .whole hdigits
    · rw [Nat.add_comm 1, List.take_succ_cons]
      exact .fraction hdigits (isDigits_take hplaces)
  case h_2 =>
    rw [List.take_zero, List.append_nil]
    exact .whole hdigits

theorem IsUnsigned.eq_or_isDecimalDigit {text : List Char} (h : IsUnsigned text) {c : Char}
    (hc : c ∈ text) : c = '.' ∨ Text.isDecimalDigit c = true := by
  cases h with
  | whole hdigits => exact .inr (hdigits.2 c hc)
  | fraction hdigits hplaces =>
    rcases List.mem_append.1 hc with hc | hc
    · exact .inr (hdigits.2 c hc)
    · exact (List.mem_cons.1 hc).imp_right (hplaces.2 c)

/-- What is read where a number starts is at least as long as the number. -/
theorem IsUnsigned.unsignedLength?_append {text : List Char} (h : IsUnsigned text)
    (rest : List Char) : ∃ n, unsignedLength? (text ++ rest) = some n ∧ text.length ≤ n := by
  cases h with
  | @whole digits hdigits =>
    have hpos := hdigits.length_pos
    rw [unsignedLength?_eq, hdigits.digitCount_append, if_neg (by omega)]
    exact ⟨_, rfl, by omega⟩
  | @fraction digits places hdigits hplaces =>
    have hpos := hdigits.length_pos
    have hpoint : digitCount ('.' :: (places ++ rest)) = 0 :=
      digitCount_eq_zero.2 (Text.stopsRun_cons.2 (by decide))
    have hmore := hplaces.digitCount_append rest
    have hplacesPos := hplaces.length_pos
    rw [List.append_assoc, List.cons_append, unsignedLength?_eq, hdigits.digitCount_append, hpoint,
      if_neg (by omega), Nat.add_zero, List.drop_left, fractionLength, if_neg (by omega), hmore]
    refine ⟨_, rfl, ?_⟩
    rw [List.length_append, List.length_cons]
    omega

theorem IsDigits.exists_cons {digits : List Char} (h : IsDigits digits) :
    ∃ c rest, digits = c :: rest ∧ Text.isDecimalDigit c = true := by
  obtain ⟨c, rest, rfl⟩ := List.exists_cons_of_ne_nil h.1
  exact ⟨c, rest, rfl, h.2 c List.mem_cons_self⟩

/-! ## What is read -/

/-- A run that is read: its first character is of one class, the others are of the other one. -/
theorem exists_run_of_runLength? {first others : Char → Bool} {text : List Char} {n : Nat}
    (h : runLength? first others text = some n) :
    ∃ c rest, text.take n = c :: rest ∧ first c = true ∧ ∀ d ∈ rest, others d = true := by
  obtain ⟨c, rest, rfl, hc, rfl⟩ := runLength?_eq_some.1 h
  refine ⟨c, rest.takeWhile others, ?_, hc, fun d hd ↦ List.mem_takeWhile_imp hd⟩
  rw [Nat.add_comm, List.take_succ_cons, ← List.prefix_iff_eq_take.1 (List.takeWhile_prefix _)]

/-- A lexeme that is read is a text of its form. -/
theorem isLexeme_of_lexeme? {text : List Char} {form : LexemeForm} {n : Nat}
    (h : lexeme? text = some (form, n)) : IsLexeme form (text.take n) := by
  have hlength := lexeme?_iff_length?.1 h
  cases form with
  | blank =>
    obtain ⟨c, rest, hrun, hc, hrest⟩ := exists_run_of_runLength? hlength
    rw [hrun]
    exact .blank (List.cons_ne_nil _ _) (List.forall_mem_cons.2 ⟨hc, hrest⟩)
  | comment =>
    obtain ⟨body, rfl, rfl⟩ := commentLength?_eq_some.1 hlength
    rw [Nat.add_comm, List.take_succ_cons, List.take_succ_cons,
      ← List.prefix_iff_eq_take.1 (List.takeWhile_prefix _)]
    exact .comment fun hline ↦ by simpa using List.mem_takeWhile_imp hline
  | string =>
    obtain ⟨rest, m, rfl, hm, rfl⟩ := quotedLength?_eq_some.1 hlength
    obtain ⟨body, htake, hbody⟩ := exists_quotable_of_stringLength? hm
    rw [List.take_succ_cons, htake]
    exact .string hbody
  | number =>
    obtain hunsigned | ⟨rest, m, rfl, hm, rfl⟩ := numberLength?_eq_some.1 hlength
    · exact .number (isUnsigned_of_unsignedLength? hunsigned)
    · rw [List.take_succ_cons]
      exact .negative (isUnsigned_of_unsignedLength? hm)
  | word =>
    obtain ⟨c, rest, hrun, hc, hrest⟩ := exists_run_of_runLength? hlength
    rw [hrun]
    exact .word hc hrest
  | mark =>
    obtain ⟨c, rest, hrun, hc, hrest⟩ := exists_run_of_runLength? hlength
    have hnil : rest = [] := List.eq_nil_iff_forall_not_mem.2 fun d hd ↦
      Bool.false_ne_true (hrest d hd)
    rw [hrun, hnil]
    exact .mark (isMark_iff.1 hc)

theorem isLexeme_of_whole {text : List Char} {form : LexemeForm}
    (h : lexeme? text = some (form, text.length)) : IsLexeme form text := by
  have hlexeme := isLexeme_of_lexeme? h
  rwa [List.take_length] at hlexeme

/-- A number is made of digits, perhaps with a point and behind a minus. -/
theorem mem_of_number {text : List Char} (h : lexeme? text = some (number, text.length)) {c : Char}
    (hc : c ∈ text) : c = '-' ∨ c = '.' ∨ Text.isDecimalDigit c = true := by
  cases isLexeme_of_whole h with
  | number hunsigned => exact .inr (hunsigned.eq_or_isDecimalDigit hc)
  | negative hunsigned => exact (List.mem_cons.1 hc).imp_right hunsigned.eq_or_isDecimalDigit

/-- Where a run starts, one is read that is at least as long. -/
theorem exists_runLength?_append {first others : Char → Bool} {c : Char} {text : List Char}
    (hc : first c = true) (htext : ∀ d ∈ text, others d = true) (rest : List Char) :
    ∃ n, runLength? first others (c :: text ++ rest) = some n ∧ (c :: text).length ≤ n := by
  refine ⟨1 + ((text ++ rest).takeWhile others).length, if_pos hc, ?_⟩
  rw [List.takeWhile_append_of_pos htext, List.length_append, List.length_cons]
  omega

/-- Where a lexeme starts, one of the same form is read that is at least as long. -/
theorem IsLexeme.exists_read {form : LexemeForm} {text : List Char} (h : IsLexeme form text)
    (rest : List Char) : ∃ n, lexeme? (text ++ rest) = some (form, n) ∧ text.length ≤ n := by
  simp only [lexeme?_iff_length?]
  cases h with
  | blank hne hall =>
    obtain ⟨c, more, rfl⟩ := List.exists_cons_of_ne_nil hne
    obtain ⟨hc, hmore⟩ := List.forall_mem_cons.1 hall
    exact exists_runLength?_append hc hmore rest
  | @comment body hbody =>
    have hline : ∀ c ∈ body, decide (c ≠ '\n') = true := fun c hc ↦
      decide_eq_true (ne_of_mem_of_not_mem hc hbody)
    refine ⟨2 + ((body ++ rest).takeWhile (· ≠ '\n')).length, rfl, ?_⟩
    rw [List.takeWhile_append_of_pos hline, List.length_append, List.length_cons, List.length_cons]
    omega
  | @string body hbody =>
    have hlength := hbody.stringLength?_append rest
    refine ⟨body.length + 2, ?_, ?_⟩
    · rw [List.cons_append, List.append_assoc, List.singleton_append]
      exact quotedLength?_eq_some.2 ⟨_, _, rfl, hlength, rfl⟩
    · rw [List.length_cons, List.length_append, List.length_singleton]
  | number hunsigned =>
    obtain ⟨n, hn, hle⟩ := hunsigned.unsignedLength?_append rest
    exact ⟨n, numberLength?_eq_some.2 (.inl hn), hle⟩
  | negative hunsigned =>
    obtain ⟨n, hn, hle⟩ := hunsigned.unsignedLength?_append rest
    exact ⟨n + 1, numberLength?_eq_some.2 (.inr ⟨_, n, rfl, hn, rfl⟩), Nat.succ_le_succ hle⟩
  | word hstart hmore => exact exists_runLength?_append hstart hmore rest
  | mark hmark =>
    exact exists_runLength?_append (isMark_iff.2 hmark) (List.forall_mem_nil _) rest

/-- What is read at the start of a text is the longest lexeme that starts there. -/
theorem lexeme?_eq_some_iff {text : List Char} {form : LexemeForm} {n : Nat} :
    lexeme? text = some (form, n) ↔ n ≤ text.length ∧ IsLexeme form (text.take n) ∧
      ∀ other lexeme, IsLexeme other lexeme → lexeme <+: text → lexeme.length ≤ n := by
  constructor
  · intro h
    refine ⟨lexeme?_le h, isLexeme_of_lexeme? h, ?_⟩
    rintro other lexeme hlexeme ⟨rest, rfl⟩
    obtain ⟨m, hm, hle⟩ := hlexeme.exists_read rest
    rw [h] at hm
    cases hm
    exact hle
  · intro ⟨hle, hlexeme, hlongest⟩
    obtain ⟨m, hm, hnm⟩ := hlexeme.exists_read (text.drop n)
    rw [List.take_append_drop] at hm
    rw [List.length_take_of_le hle] at hnm
    have hmn := hlongest form _ (isLexeme_of_lexeme? hm) (List.take_prefix m text)
    rw [List.length_take_of_le (lexeme?_le hm)] at hmn
    rw [hm, Nat.le_antisymm hmn hnm]

/-- Nothing is read at the start of a text exactly if no lexeme starts there. -/
theorem lexeme?_eq_none_iff {text : List Char} :
    lexeme? text = none ↔ ∀ form lexeme, IsLexeme form lexeme → ¬lexeme <+: text := by
  constructor
  · rintro h form lexeme hlexeme ⟨rest, rfl⟩
    obtain ⟨n, hn, -⟩ := hlexeme.exists_read rest
    rw [h] at hn
    cases hn
  · intro h
    rw [Option.eq_none_iff_forall_ne_some]
    rintro ⟨form, n⟩ hread
    exact h form _ (isLexeme_of_lexeme? hread) (List.take_prefix n text)

end SchemaLang.LexemeForm
