import SchemaLang.Proofs.Token.Choice
import SchemaLang.Text.Words

/-!
# The words of a name

Cutting a name into words loses nothing but the characters between them (`flatten_words`). Of a name
that can be an identifier the words are made of ASCII letters and digits, and these keep their
order when each word is capitalized: only their letter case changes (`plain_upperCamel`).
-/

namespace SchemaLang.Text

/-! ## Cutting into words -/

theorem flatten_pieces (text : List Char) : (pieces text).flatten = text.filter isAlphanumeric := by
  induction text with
  | nil => rfl
  | cons c text ih =>
    rw [List.filter_cons, ← ih]
    unfold pieces
    rw [List.foldr_cons]
    split_ifs
    · split
      next part rest hparts =>
        rw [hparts]
        rfl
      next hparts =>
        rw [hparts]
        rfl
    · rfl

theorem flatten_cutWords (mode : CaseMode) (current : List Char) (c : Char) (rest : List Char) :
    (cutWords mode current (c :: rest)).flatten = current ++ c :: rest := by
  induction rest generalizing mode current c with
  | nil => simp [cutWords]
  | cons next rest ih =>
    rw [cutWords]
    split_ifs <;> simp [ih]

theorem flatten_cutWords_nil (text : List Char) : (cutWords .boundary [] text).flatten = text := by
  cases text with
  | nil => rfl
  | cons c rest => exact flatten_cutWords .boundary [] c rest

/-- The words of a text are its letters and numbers in order. -/
theorem flatten_words (text : List Char) : (words text).flatten = text.filter isAlphanumeric := by
  rw [words, ← List.flatMap_id, List.flatMap_assoc]
  simp only [List.flatMap_id, flatten_cutWords_nil, List.flatMap_id']
  exact flatten_pieces text

/-- No word is empty: a word is only ended before a letter if one has been read. -/
theorem nil_notMem_cutWords {mode : CaseMode} {current text : List Char}
    (h : mode = .upper → current ≠ []) : [] ∉ cutWords mode current text := by
  fun_induction cutWords mode current text with
  | case1 => exact List.not_mem_nil
  | case2 => simp
  | case3 mode current c next rest hcut ih => simp [ih]
  | case4 mode current c next rest hnot hcut ih =>
    have hcurrent := h hcut.1
    simp [ih, hcurrent.symm]
  | case5 mode current c next rest hnot hnot' ih => exact ih fun _ ↦ by simp

theorem nil_notMem_words (text : List Char) : [] ∉ words text := by
  rw [words, List.mem_flatMap]
  intro ⟨piece, _, hmem⟩
  have hboundary : CaseMode.boundary = .upper → ([] : List Char) ≠ [] := by decide
  exact nil_notMem_cutWords hboundary hmem

/-! ## Names of ASCII letters and digits -/

/-- A text of characters that words are made of. -/
def IsWordText (text : List Char) : Prop := text.all LexemeForm.continuesWord = true

theorem continuesWord_of_isAlphanum {c : Char} (h : c.isAlphanum = true) :
    LexemeForm.continuesWord c = true := by
  rw [LexemeForm.continuesWord, h, Bool.true_or]

/--
An ASCII letter or digit in upper and in lower case is the one that ASCII has for it. This is
checked code by code.
-/
theorem letterCase_of_isAlphanum {c : Char} (hc : c.isAlphanum = true) :
    isAlphanumeric c = true ∧
    (toUpperCase c = [c.toUpper] ∧ c.toUpper.isAlphanum = true ∧ c.toUpper.isAlpha = c.isAlpha ∧
      c.toUpper.isLower = false ∧ c.toUpper.toLower = c.toLower) ∧
    (toLowerCase c = [c.toLower] ∧ c.toLower.isAlphanum = true ∧ c.toLower.isAlpha = c.isAlpha ∧
      c.toLower.toLower = c.toLower) := by
  have hcode := (LexemeForm.toNat_of_continuesWord (continuesWord_of_isAlphanum hc)).2
  rw [← Char.ofNat_toNat c] at hc ⊢
  generalize c.toNat = code at hc hcode ⊢
  revert hc
  revert code
  decide +kernel

theorem isAlphanumeric_of_isAlphanum {c : Char} (hc : c.isAlphanum = true) :
    isAlphanumeric c = true := (letterCase_of_isAlphanum hc).1

/-- Of the characters of words only the underscore is neither a letter nor a number. -/
theorem isAlphanumeric_of_continuesWord {c : Char} (hc : LexemeForm.continuesWord c = true) :
    isAlphanumeric c = c.isAlphanum := by
  rw [LexemeForm.continuesWord, Bool.or_eq_true] at hc
  rcases hc with hc | hc
  · rw [hc, isAlphanumeric_of_isAlphanum hc]
  · rw [of_decide_eq_true hc]
    decide

theorem toUpperCase_of_isAlphanum {c : Char} (hc : c.isAlphanum = true) :
    toUpperCase c = [c.toUpper] := (letterCase_of_isAlphanum hc).2.1.1

theorem toLowerCase_of_isAlphanum {c : Char} (hc : c.isAlphanum = true) :
    toLowerCase c = [c.toLower] := (letterCase_of_isAlphanum hc).2.2.1

theorem lowerWord_of_isAlphanum {word : List Char} (hword : ∀ c ∈ word, c.isAlphanum = true) :
    lowerWord word = word.map Char.toLower := by
  have hsigma : ('Σ' : Char).isAlphanum = false := by decide
  induction word with
  | nil => rfl
  | cons c rest ih =>
    obtain ⟨hc, hrest⟩ := List.forall_mem_cons.1 hword
    cases rest with
    | nil =>
      have hne : c ≠ 'Σ' := by
        rintro rfl
        exact absurd hc (by rw [hsigma]; decide)
      rw [lowerWord, if_neg hne, toLowerCase_of_isAlphanum hc, List.map_singleton]
    | cons next rest =>
      rw [lowerWord, ih hrest, toLowerCase_of_isAlphanum hc]
      · rfl
      · exact fun h ↦ nomatch h

theorem capitalizedWord_of_isAlphanum {c : Char} {rest : List Char}
    (h : ∀ d ∈ c :: rest, d.isAlphanum = true) :
    capitalizedWord (c :: rest) = c.toUpper :: rest.map Char.toLower := by
  obtain ⟨hc, hrest⟩ := List.forall_mem_cons.1 h
  rw [capitalizedWord, toUpperCase_of_isAlphanum hc, lowerWord_of_isAlphanum hrest]
  rfl

theorem isAlphanum_toUpper {c : Char} (hc : c.isAlphanum = true) : c.toUpper.isAlphanum = true :=
  (letterCase_of_isAlphanum hc).2.1.2.1

theorem isAlphanum_toLower {c : Char} (hc : c.isAlphanum = true) : c.toLower.isAlphanum = true :=
  (letterCase_of_isAlphanum hc).2.2.2.1

theorem toLower_toUpper {c : Char} (hc : c.isAlphanum = true) : c.toUpper.toLower = c.toLower :=
  (letterCase_of_isAlphanum hc).2.1.2.2.2.2

theorem toLower_toLower {c : Char} (hc : c.isAlphanum = true) : c.toLower.toLower = c.toLower :=
  (letterCase_of_isAlphanum hc).2.2.2.2.2

theorem isLower_toUpper {c : Char} (hc : c.isAlphanum = true) : c.toUpper.isLower = false :=
  (letterCase_of_isAlphanum hc).2.1.2.2.2.1

theorem isAlpha_toUpper {c : Char} (hc : c.isAlphanum = true) : c.toUpper.isAlpha = c.isAlpha :=
  (letterCase_of_isAlphanum hc).2.1.2.2.1

theorem isAlpha_toLower {c : Char} (hc : c.isAlphanum = true) : c.toLower.isAlpha = c.isAlpha :=
  (letterCase_of_isAlphanum hc).2.2.2.2.1

theorem isAlphanum_of_mem_words {text : List Char} (h : IsWordText text) {word : List Char}
    (hword : word ∈ words text) {c : Char} (hc : c ∈ word) : c.isAlphanum = true := by
  have hmem : c ∈ text.filter isAlphanumeric := by
    rw [← flatten_words]
    exact List.mem_flatten_of_mem hword hc
  obtain ⟨htext, halpha⟩ := List.mem_filter.1 hmem
  rwa [isAlphanumeric_of_continuesWord (List.all_eq_true.1 h c htext)] at halpha

theorem filter_isAlphanumeric {text : List Char} (h : IsWordText text) :
    text.filter isAlphanumeric = text.filter Char.isAlphanum :=
  List.filter_congr fun c hc ↦ isAlphanumeric_of_continuesWord (List.all_eq_true.1 h c hc)

/-- The first word of a name starts with its first letter or digit. -/
theorem words_eq_nil_or_cons {text : List Char} (h : IsWordText text) :
    words text = [] ∧ text.find? Char.isAlphanum = none ∨
      ∃ first rest others, words text = (first :: rest) :: others ∧
        text.find? Char.isAlphanum = some first ∧ ∀ c ∈ first :: rest, c.isAlphanum = true := by
  have hflatten := flatten_words text
  have hnil := nil_notMem_words text
  have halpha := @isAlphanum_of_mem_words _ h
  rw [filter_isAlphanumeric h] at hflatten
  rw [← List.head?_filter, ← hflatten]
  cases hwords : words text with
  | nil => exact .inl ⟨rfl, rfl⟩
  | cons word others =>
    rw [hwords] at hnil halpha
    cases word with
    | nil => exact absurd List.mem_cons_self hnil
    | cons first rest =>
      exact .inr ⟨first, rest, others, rfl, rfl, fun _ ↦ halpha List.mem_cons_self⟩

theorem isAlphanum_of_mem_capitalizedWord {word : List Char}
    (hword : ∀ c ∈ word, c.isAlphanum = true) {c : Char} (hc : c ∈ capitalizedWord word) :
    c.isAlphanum = true := by
  cases word with
  | nil => cases hc
  | cons first rest =>
    obtain ⟨hfirst, hrest⟩ := List.forall_mem_cons.1 hword
    rw [capitalizedWord_of_isAlphanum hword] at hc
    rcases List.mem_cons.1 hc with rfl | hc
    · exact isAlphanum_toUpper hfirst
    · obtain ⟨d, hd, rfl⟩ := List.mem_map.1 hc
      exact isAlphanum_toLower (hrest d hd)

theorem map_toLower_capitalizedWord {word : List Char}
    (hword : ∀ c ∈ word, c.isAlphanum = true) :
    (capitalizedWord word).map Char.toLower = word.map Char.toLower := by
  cases word with
  | nil => rfl
  | cons first rest =>
    obtain ⟨hfirst, hrest⟩ := List.forall_mem_cons.1 hword
    have hagain : rest.map (Char.toLower ∘ Char.toLower) = rest.map Char.toLower :=
      List.map_congr_left fun c hc ↦ toLower_toLower (hrest c hc)
    rw [capitalizedWord_of_isAlphanum hword, List.map_cons, List.map_map, hagain,
      toLower_toUpper hfirst, List.map_cons]

/-! ## Capitalized names -/

theorem toList_upperCamel (name : String) :
    (upperCamel name).toList = (words name.toList).flatMap capitalizedWord :=
  String.toList_ofList

/-- A capitalized name has no characters but ASCII letters and digits. -/
theorem isAlphanum_of_mem_upperCamel {name : String} (h : IsWordText name.toList) {c : Char}
    (hc : c ∈ (upperCamel name).toList) : c.isAlphanum = true := by
  rw [toList_upperCamel] at hc
  obtain ⟨word, hword, hc⟩ := List.mem_flatMap.1 hc
  exact isAlphanum_of_mem_capitalizedWord (fun _ hd ↦ isAlphanum_of_mem_words h hword hd) hc

theorem isWordText_upperCamel {name : String} (h : IsWordText name.toList) :
    IsWordText (upperCamel name).toList := by
  apply List.all_eq_true.2
  exact fun c hc ↦ continuesWord_of_isAlphanum (isAlphanum_of_mem_upperCamel h hc)

theorem head?_upperCamel {name : String} (h : IsWordText name.toList) :
    (upperCamel name).toList.head? = (name.toList.find? Char.isAlphanum).map Char.toUpper := by
  rw [toList_upperCamel]
  obtain ⟨hwords, hfind⟩ | ⟨first, rest, others, hwords, hfind, hword⟩ := words_eq_nil_or_cons h
  · rw [hwords, hfind]
    rfl
  · rw [hwords, hfind, List.flatMap_cons, capitalizedWord_of_isAlphanum hword]
    rfl

/-- A capitalized name starts with no lower case letter. -/
theorem isLower_head_upperCamel {name : String} (h : IsWordText name.toList) {c : Char}
    (hc : (upperCamel name).toList.head? = some c) : c.isLower = false := by
  rw [head?_upperCamel h] at hc
  obtain ⟨d, hd, rfl⟩ := Option.map_eq_some_iff.1 hc
  exact isLower_toUpper (List.find?_some hd)

/-! ## Names in lower case -/

theorem mem_of_mem_intercalate {α : Type} {gap : List α} {parts : List (List α)} {a : α}
    (h : a ∈ List.intercalate gap parts) : a ∈ gap ∨ ∃ part ∈ parts, a ∈ part := by
  induction parts with
  | nil => cases h
  | cons part parts ih =>
    cases parts with
    | nil =>
      rw [List.intercalate_singleton] at h
      exact .inr ⟨part, List.mem_cons_self, h⟩
    | cons next parts =>
      rw [List.intercalate_cons_cons, List.mem_append, List.mem_append] at h
      rcases h with (hpart | hgap) | hrest
      · exact .inr ⟨part, List.mem_cons_self, hpart⟩
      · exact .inl hgap
      · rcases ih hrest with hgap | ⟨other, hother, hmem⟩
        · exact .inl hgap
        · exact .inr ⟨other, List.mem_cons_of_mem _ hother, hmem⟩

theorem isAlphanum_of_mem_lowerWord {word : List Char} (hword : ∀ c ∈ word, c.isAlphanum = true)
    {c : Char} (hc : c ∈ lowerWord word) : c.isAlphanum = true := by
  rw [lowerWord_of_isAlphanum hword] at hc
  obtain ⟨d, hd, rfl⟩ := List.mem_map.1 hc
  exact isAlphanum_toLower (hword d hd)

theorem isWordText_lowerCamel {name : String} (h : IsWordText name.toList) :
    IsWordText (lowerCamel name).toList := by
  have halpha := @isAlphanum_of_mem_words _ h
  unfold lowerCamel
  cases hwords : words name.toList with
  | nil => rfl
  | cons first rest =>
    rw [hwords] at halpha
    dsimp only
    rw [String.toList_ofList]
    apply List.all_eq_true.2
    intro c hc
    apply continuesWord_of_isAlphanum
    rcases List.mem_append.1 hc with hc | hc
    · exact isAlphanum_of_mem_lowerWord (fun _ ↦ halpha List.mem_cons_self) hc
    · obtain ⟨word, hword, hc⟩ := List.mem_flatMap.1 hc
      exact isAlphanum_of_mem_capitalizedWord (fun _ ↦ halpha (List.mem_cons_of_mem _ hword)) hc

theorem isWordText_snakeCase {name : String} (h : IsWordText name.toList) :
    IsWordText (snakeCase name).toList := by
  rw [snakeCase, String.toList_ofList]
  apply List.all_eq_true.2
  intro c hc
  rcases mem_of_mem_intercalate hc with hgap | ⟨lower, hlower, hc⟩
  · rw [List.mem_singleton.1 hgap]
    decide
  · obtain ⟨word, hword, rfl⟩ := List.mem_map.1 hlower
    exact continuesWord_of_isAlphanum
      (isAlphanum_of_mem_lowerWord (fun _ ↦ isAlphanum_of_mem_words h hword) hc)

theorem head?_snakeCase {name : String} (h : IsWordText name.toList) :
    (snakeCase name).toList.head? = (name.toList.find? Char.isAlphanum).map Char.toLower := by
  rw [snakeCase, String.toList_ofList]
  obtain ⟨hwords, hfind⟩ | ⟨first, rest, others, hwords, hfind, hword⟩ := words_eq_nil_or_cons h
  · rw [hwords, hfind]
    rfl
  · rw [hwords, hfind, List.map_cons, lowerWord_of_isAlphanum hword]
    cases others <;> rfl

/-! ## Names regardless of letter case -/

/-- What is left of a name regardless of letter case and of underscores. -/
def plain (name : String) : List Char := (name.toList.filter Char.isAlphanum).map Char.toLower

/-- Capitalizing the words of a name changes nothing but its letter case and its underscores. -/
theorem plain_upperCamel {name : String} (h : IsWordText name.toList) :
    plain (upperCamel name) = plain name := by
  have hall : (upperCamel name).toList.filter Char.isAlphanum = (upperCamel name).toList :=
    List.filter_eq_self.2 fun c hc ↦ isAlphanum_of_mem_upperCamel h hc
  have hwords : (words name.toList).map (fun word ↦ (capitalizedWord word).map Char.toLower) =
      (words name.toList).map (List.map Char.toLower) :=
    List.map_congr_left fun word hword ↦
      map_toLower_capitalizedWord fun c hc ↦ isAlphanum_of_mem_words h hword hc
  calc
    plain (upperCamel name) =
        ((words name.toList).flatMap capitalizedWord).map Char.toLower := by
      rw [plain, hall, toList_upperCamel]
    _ = ((words name.toList).map fun word ↦ (capitalizedWord word).map Char.toLower).flatten := by
      rw [List.map_flatMap, List.flatMap]
    _ = (words name.toList).flatten.map Char.toLower := by
      rw [hwords, List.map_flatten]
    _ = plain name := by
      rw [flatten_words, filter_isAlphanumeric h, plain]

end SchemaLang.Text
