import SchemaLang.Proofs.Number.Nearest
import SchemaLang.Proofs.Token.Longest

/-!
# Written numbers

A number is written with digits, perhaps with a minus before them and a point with places behind
them (`WrittenNumber`). Written in digits of the Latin script it is read, and its literal is exact
as far as that is possible (`WrittenNumber.exists_denotes`). A digit of another script is a digit
where lexemes are cut, but not where numbers are read, so that a number with such a digit is none
(`WrittenNumber.ofNumber?_eq_none`).
-/

namespace SchemaLang

/-! ## Characters of numbers that are read -/

namespace Decimal

/-- The characters besides digits that the notation of binary numbers has. -/
def notationMarks : List Char := ['-', '+', '.', 'e', 'E']

theorem not_isDecimalDigit_of_mem_notationMarks :
    ∀ c ∈ notationMarks, Text.isDecimalDigit c = false := by
  have hall : notationMarks.all (!Text.isDecimalDigit ·) = true := by decide
  simpa using hall

variable {cs : List Char} {c : Char}

theorem mem_splitSign (hc : c ∈ cs) : c ∈ (splitSign cs).2 ∨ c ∈ notationMarks := by
  unfold splitSign
  split
  case h_1 =>
    rcases List.mem_cons.1 hc with rfl | hc
    · exact .inr (by decide)
    · exact .inl hc
  case h_2 =>
    rcases List.mem_cons.1 hc with rfl | hc
    · exact .inr (by decide)
    · exact .inl hc
  case h_3 => exact .inl hc

theorem mem_of_readInt? {n : Int} (h : readInt? cs = some n) (hc : c ∈ cs) :
    isDigit c = true ∨ c ∈ notationMarks := by
  refine (mem_splitSign hc).imp_left fun hc ↦ ?_
  rw [readInt?] at h
  dsimp only at h
  obtain ⟨m, hm, -⟩ := Option.map_eq_some_iff.1 h
  rw [readNat?] at hm
  split at hm
  case isTrue hdigits => exact List.all_eq_true.1 hdigits.2 c hc
  case isFalse => cases hm

theorem mem_of_readExponent? {n : Int} (h : readExponent? cs = some n) (hc : c ∈ cs) :
    isDigit c = true ∨ c ∈ notationMarks := by
  unfold readExponent? at h
  split at h
  case h_1 => cases hc
  case h_2 d rest =>
    split_ifs at h with hmark
    rcases List.mem_cons.1 hc with rfl | hc
    · exact .inr (by rcases hmark with rfl | rfl <;> decide)
    · exact mem_of_readInt? h hc

theorem mem_span (hc : c ∈ cs) : isDigit c = true ∨ c ∈ (cs.span isDigit).2 := by
  rw [List.span_eq_takeWhile_dropWhile]
  rw [← List.takeWhile_append_dropWhile (p := isDigit) (l := cs), List.mem_append] at hc
  exact hc.imp_left fun hmem ↦ List.mem_takeWhile_imp hmem

theorem mem_splitFraction (hc : c ∈ cs) :
    isDigit c = true ∨ c ∈ (splitFraction cs).2 ∨ c ∈ notationMarks := by
  unfold splitFraction
  split
  case h_1 rest =>
    rcases List.mem_cons.1 hc with rfl | hc
    · exact .inr (.inr (by decide))
    · exact (mem_span hc).imp_right .inl
  case h_2 => exact .inr (.inl hc)

/-- A text that is read as a decimal has no other characters than the notation has. -/
theorem mem_of_read? {x : Decimal} (h : read? cs = some x) (hc : c ∈ cs) :
    isDigit c = true ∨ c ∈ notationMarks := by
  rw [read?] at h
  dsimp only at h
  split at h
  case isTrue => cases h
  case isFalse =>
  obtain ⟨exponent, hexponent, -⟩ := Option.bind_eq_some_iff.1 h
  rcases mem_splitSign hc with hc | hmark
  · rcases mem_span hc with hdigit | hc
    · exact .inl hdigit
    · rcases mem_splitFraction hc with hdigit | hc | hmark
      · exact .inl hdigit
      · exact mem_of_readExponent? hexponent hc
      · exact .inr hmark
  · exact .inr hmark

/-! ## Places behind a point -/

theorem foldl_appendDigit (digits : List Char) (n : Nat) :
    digits.foldl appendDigit n = n * 10 ^ digits.length + ofDigits digits := by
  induction digits generalizing n with
  | nil => rw [List.foldl_nil, List.length_nil, Nat.pow_zero, Nat.mul_one]; rfl
  | cons digit digits ih =>
    have hcons : ofDigits (digit :: digits) = digits.foldl appendDigit (appendDigit 0 digit) := rfl
    have hfirst : appendDigit n digit = n * 10 + appendDigit 0 digit := by
      rw [appendDigit, appendDigit, Nat.zero_mul, Nat.zero_add]
    rw [List.foldl_cons, hcons, ih, ih (appendDigit 0 digit), hfirst, List.length_cons,
      Nat.pow_succ', Nat.add_mul, Nat.mul_assoc, Nat.add_assoc]

/-- Places behind a point count as what they denote, divided by a power of ten. -/
theorem magnitude_places (negative : Bool) (whole places : List Char) :
    magnitude ⟨negative, ofDigits (whole ++ places), 0 - places.length⟩ =
      ofDigits whole + ofDigits places / 10 ^ places.length := by
  have hten : (10 : ℚ) ^ places.length ≠ 0 := pow_ne_zero _ (by norm_num)
  rw [magnitude_of_nonpos (by dsimp only; omega), ofDigits_append, foldl_appendDigit]
  simp only [zero_sub, neg_neg, Int.toNat_natCast]
  push_cast
  rw [add_div, mul_div_cancel_right₀ _ hten]

theorem read?_fraction {whole places : List Char} (hne : whole ≠ [])
    (hwhole : ∀ c ∈ whole, isDigit c = true) (hplaces : ∀ c ∈ places, isDigit c = true)
    (negative : Bool) : read? (integerText negative (whole ++ '.' :: places)) =
      some ⟨negative, ofDigits (whole ++ places), 0 - places.length⟩ := by
  have hsign : ∀ c ∈ (whole ++ '.' :: places).head?, c ≠ '-' ∧ c ≠ '+' := by
    rw [List.head?_append_of_ne_nil _ hne]
    exact ne_sign_of_digits hwhole
  have hspan : (whole ++ '.' :: places).span isDigit = (whole, '.' :: places) :=
    Text.span_append hwhole (Text.stopsRun_cons.2 (by decide))
  have hrest : places.span isDigit = (places, []) := by
    simpa using Text.span_append hplaces (Text.stopsRun_nil isDigit)
  rw [read?, splitSign_integerText hsign]
  dsimp only
  rw [hspan]
  dsimp only
  rw [splitFraction, hrest]
  simp [readExponent?, hne]

end Decimal

/-! ## Written numbers -/

/-- A number as it is written: a minus or nothing, digits, and perhaps places behind a point. -/
structure WrittenNumber where
  negative : Bool
  whole : List Char
  places : Option (List Char)
  isDigits_whole : LexemeForm.IsDigits whole
  isDigits_places : ∀ digits ∈ places, LexemeForm.IsDigits digits

namespace WrittenNumber

/-- The digits on both sides of the point. -/
def digits (number : WrittenNumber) : List Char := number.whole ++ number.places.getD []

/-- The text behind the minus. -/
def unsignedText (number : WrittenNumber) : List Char :=
  match number.places with
  | none => number.whole
  | some digits => number.whole ++ '.' :: digits

/-- The text of a number. -/
def text (number : WrittenNumber) : List Char := integerText number.negative number.unsignedText

/-- All digits of a number are those of the Latin script. -/
def IsLatin (number : WrittenNumber) : Prop := ∀ c ∈ number.digits, Decimal.isDigit c = true

instance (number : WrittenNumber) : Decidable number.IsLatin :=
  inferInstanceAs (Decidable (∀ _ ∈ _, _))

/-- The exact absolute value of a number in digits of the Latin script. -/
def magnitude (number : WrittenNumber) : ℚ :=
  Decimal.ofDigits number.whole +
    Decimal.ofDigits (number.places.getD []) / 10 ^ (number.places.getD []).length

/-- The exact value of a number in digits of the Latin script. -/
def value (number : WrittenNumber) : ℚ :=
  if number.negative then -number.magnitude else number.magnitude

/--
The literal of a number: an integer of exactly the value of the number if the number has no point
and fits into 64 bits, and else the binary number nearest to the value.
-/
def Denotes (number : WrittenNumber) (literal : Literal) : Prop :=
  if number.places = none ∧ -2 ^ 63 ≤ number.value ∧ number.value < 2 ^ 63 then
    ∃ n : Int64, literal = .integer n ∧ (n.toInt : ℚ) = number.value
  else ∃ x, literal = .float x ∧ x.IsNearest number.negative number.magnitude

variable {number : WrittenNumber}

theorem exists_cons_unsignedText (number : WrittenNumber) :
    ∃ c rest, number.unsignedText = c :: rest ∧ Text.isDecimalDigit c = true := by
  obtain ⟨c, rest, hwhole, hc⟩ := number.isDigits_whole.exists_cons
  unfold unsignedText
  rw [hwhole]
  cases number.places with
  | none => exact ⟨c, rest, rfl, hc⟩
  | some digits => exact ⟨c, rest ++ '.' :: digits, rfl, hc⟩

theorem mem_text_of_mem_digits {c : Char} (hc : c ∈ number.digits) : c ∈ number.text := by
  have hunsigned : c ∈ number.unsignedText := by
    unfold digits at hc
    unfold unsignedText
    cases hplaces : number.places with
    | none =>
      rw [hplaces, Option.getD_none, List.append_nil] at hc
      exact hc
    | some digits =>
      rw [hplaces, Option.getD_some, List.mem_append] at hc
      exact List.mem_append.2 (hc.imp_right (List.mem_cons_of_mem _))
  unfold text integerText
  split
  · exact List.mem_cons_of_mem _ hunsigned
  · exact hunsigned

/-- A lexeme of a number is a written number. -/
theorem exists_of_isLexeme {text : List Char} (h : LexemeForm.IsLexeme .number text) :
    ∃ number : WrittenNumber, text = number.text := by
  have hunsigned {text : List Char} (h : LexemeForm.IsUnsigned text) (negative : Bool) :
      ∃ number : WrittenNumber, integerText negative text = number.text := by
    cases h with
    | whole hdigits =>
      refine ⟨⟨negative, _, none, hdigits, ?_⟩, rfl⟩
      rintro _ ⟨⟩
    | fraction hdigits hplaces =>
      exact ⟨⟨negative, _, some _, hdigits, fun _ h ↦ Option.some.inj h ▸ hplaces⟩, rfl⟩
  cases h with
  | number h => exact hunsigned h false
  | negative h => exact hunsigned h true

/-- A written number is no name, and is read as a decimal. -/
theorem binary_text (number : WrittenNumber) : Binary64.read? (String.ofList number.text) =
    (Decimal.read? number.text).map Decimal.toBinary := by
  obtain ⟨c, rest, hunsigned, hc⟩ := number.exists_cons_unsignedText
  rw [text, hunsigned]
  exact Binary64.read?_of_digit hc rest _

theorem isDecimalDigit_of_mem_digits {c : Char} (hc : c ∈ number.digits) :
    Text.isDecimalDigit c = true := by
  rcases List.mem_append.1 hc with hc | hc
  · exact number.isDigits_whole.2 c hc
  · cases hplaces : number.places with
    | none =>
      rw [hplaces] at hc
      cases hc
    | some places =>
      rw [hplaces] at hc
      exact (number.isDigits_places places hplaces).2 c hc

/-! ## Numbers without a point -/

theorem magnitude_of_whole (h : number.places = none) :
    number.magnitude = (Decimal.ofDigits number.whole : ℚ) := by
  have hnil : Decimal.ofDigits [] = 0 := rfl
  rw [magnitude, h, Option.getD_none, hnil, Nat.cast_zero, zero_div, add_zero]

theorem value_of_whole (h : number.places = none) :
    number.value = (signed number.negative (Decimal.ofDigits number.whole) : ℚ) := by
  rw [value, magnitude_of_whole h, signed]
  split <;> simp

theorem inSigned64_iff_value (h : number.places = none) :
    inSigned64 (signed number.negative (Decimal.ofDigits number.whole)) = true ↔
      -2 ^ 63 ≤ number.value ∧ number.value < 2 ^ 63 := by
  rw [value_of_whole h, inSigned64, Bool.and_eq_true, decide_eq_true_iff, decide_eq_true_iff]
  norm_cast

theorem denotes_whole (h : number.places = none) :
    number.Denotes (.whole number.negative (Decimal.ofDigits number.whole)) := by
  unfold Denotes Literal.whole
  simp only [h, true_and, ← inSigned64_iff_value h]
  split
  case isTrue hfits =>
    refine ⟨_, rfl, ?_⟩
    rw [value_of_whole h]
    simp only [inSigned64, Bool.and_eq_true, decide_eq_true_eq] at hfits
    rw [Int64.toInt_ofInt_of_le hfits.1 hfits.2]
  case isFalse =>
    have hnearest := @Binary64.isNearest_ofRatio (Decimal.ofDigits number.whole) 1 Nat.one_pos
      number.negative
    rw [Nat.cast_one, div_one, ← magnitude_of_whole h] at hnearest
    exact ⟨_, rfl, hnearest⟩

/-! ## All numbers -/

/-- A number in digits of the Latin script has its literal. -/
theorem exists_denotes (hlatin : number.IsLatin) :
    ∃ literal, Literal.ofNumber? (String.ofList number.text) = some literal ∧
      number.Denotes literal := by
  cases hplaces : number.places with
  | none =>
    have htext : number.text = integerText number.negative number.whole := by
      rw [text, unsignedText, hplaces]
    have hwhole : ∀ c ∈ number.whole, Decimal.isDigit c = true := fun c hc ↦
      hlatin c (List.mem_append_left _ hc)
    rw [htext, Literal.ofNumber?_integerText number.isDigits_whole.1 hwhole]
    exact ⟨_, rfl, denotes_whole hplaces⟩
  | some places =>
    have htext : number.unsignedText = number.whole ++ '.' :: places := by
      rw [unsignedText, hplaces]
    have hread : Decimal.read? number.text = some ⟨number.negative,
        Decimal.ofDigits (number.whole ++ places), 0 - places.length⟩ := by
      rw [text, htext]
      refine Decimal.read?_fraction number.isDigits_whole.1
        (fun c hc ↦ hlatin c (List.mem_append_left _ hc)) (fun c hc ↦ hlatin c ?_) _
      rw [digits, hplaces]
      exact List.mem_append_right _ hc
    have hpoint : number.text.contains '.' = true := by
      have hmem : '.' ∈ number.unsignedText := by
        rw [htext]
        exact List.mem_append_right _ List.mem_cons_self
      rw [List.contains_iff_mem, text, integerText]
      split
      · exact List.mem_cons_of_mem _ hmem
      · exact hmem
    have hnearest := Decimal.isNearest_toBinary ⟨number.negative,
      Decimal.ofDigits (number.whole ++ places), 0 - places.length⟩
    rw [Decimal.magnitude_places] at hnearest
    have hpointed : ¬(number.places = none ∧ -2 ^ 63 ≤ number.value ∧ number.value < 2 ^ 63) := by
      rintro ⟨hnone, -⟩
      rw [hplaces] at hnone
      cases hnone
    rw [Literal.ofNumber?, String.toList_ofList, hpoint, if_pos rfl, binary_text, hread]
    refine ⟨_, rfl, ?_⟩
    rw [Denotes, if_neg hpointed, magnitude, hplaces]
    exact ⟨_, rfl, hnearest⟩

/-- A number with a digit of another script has none. -/
theorem ofNumber?_eq_none (hlatin : ¬number.IsLatin) :
    Literal.ofNumber? (String.ofList number.text) = none := by
  obtain ⟨c, hc, hforeign⟩ : ∃ c ∈ number.digits, Decimal.isDigit c ≠ true := by
    simpa [IsLatin] using hlatin
  have hmem := mem_text_of_mem_digits hc
  -- The digit is neither one that is read nor a mark.
  have hother : ¬(Decimal.isDigit c = true ∨ c ∈ Decimal.notationMarks) := by
    rintro (hdigit | hmark)
    · exact hforeign hdigit
    · have hnone := Decimal.not_isDecimalDigit_of_mem_notationMarks c hmark
      rw [isDecimalDigit_of_mem_digits hc] at hnone
      cases hnone
  have hinteger : readSigned64? (String.ofList number.text) = none := by
    rw [readSigned64?, String.toList_ofList]
    cases hread : Decimal.readInt? number.text with
    | none => rfl
    | some n => exact absurd (Decimal.mem_of_readInt? hread hmem) hother
  have hbinary : Decimal.read? number.text = none := by
    rw [Option.eq_none_iff_forall_ne_some]
    exact fun x hread ↦ hother (Decimal.mem_of_read? hread hmem)
  rw [Literal.ofNumber?, hinteger, ite_self, binary_text, hbinary]
  rfl

end WrittenNumber

end SchemaLang
