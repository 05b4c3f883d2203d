import SchemaLang.Definition.OfTree
import SchemaLang.Proofs.Number.Digits
import SchemaLang.Proofs.Number.Exact
import SchemaLang.Proofs.Token.Choice

/-!
# Whole numbers as literals

A number without a point is a whole number, and its literal is an integer where that fits into 64
bits with a sign (`ofNumber?_integerText`). Any other one is rounded. What a whole number is rounded
to is a whole number again (`units_nearestRank_one`): with 53 bits at most it is kept, and above
that the low bits are rounded away (`nearestWhole`). So a literal is equal to an unsigned integer of
64 bits that may not be the one that is written (`toUnsigned64?_whole`).
-/

namespace SchemaLang

-- Powers are those of the definitions, and not those of a monoid.
attribute [local instance (high)] instPowNat

namespace Binary64

/-! ## Rounded whole numbers -/

/-- A whole number rounded to its 53 leading bits. -/
def nearestWhole (n : Nat) : Nat :=
  divideHalfEven n (2 ^ (n.log2 - 52)) * 2 ^ (n.log2 - 52)

theorem nearestWhole_of_lt {n : Nat} (h : n < 2 ^ 53) : nearestWhole n = n := by
  have hlog : n.log2 - 52 = 0 := by
    by_cases hzero : n = 0
    · rw [hzero, Nat.log2_zero]
    · have := (Nat.log2_lt hzero).2 h
      omega
  rw [nearestWhole, hlog, Nat.pow_zero, divideHalfEven_one, Nat.mul_one]

/-- Rounding keeps a number above the powers of two below it. -/
theorem two_pow_le_nearestWhole {n k : Nat} (hk : 52 ≤ k) (h : 2 ^ k ≤ n) :
    2 ^ k ≤ nearestWhole n := by
  have hbits : 2 ^ 52 ≤ n := Nat.le_trans (Nat.pow_le_pow_right (by decide) hk) h
  have hlog : k ≤ n.log2 := (Nat.le_log2 (Nat.ne_of_gt (Nat.lt_of_lt_of_le (by decide) hbits))).2 h
  calc
    2 ^ k = 2 ^ 52 * 2 ^ (k - 52) := by rw [← Nat.pow_add, Nat.add_sub_cancel' hk]
    _ ≤ n / 2 ^ (n.log2 - 52) * 2 ^ (n.log2 - 52) :=
      Nat.mul_le_mul (two_pow_le_div hbits) (Nat.pow_le_pow_right (by decide) (by omega))
    _ ≤ nearestWhole n := Nat.mul_le_mul_right _ (div_le_divideHalfEven _ _)

/-- The magnitude nearest to a whole number is whole. -/
theorem units_nearestRank_one (n : Nat) :
    units (nearestRank n 1) = nearestWhole n * unitsPerOne := by
  rcases Nat.lt_or_ge n (2 ^ 53) with hlt | hle
  · have hexact := units_nearestRank hlt 0
    rw [Nat.pow_zero, Nat.mul_one] at hexact
    rw [hexact, nearestWhole_of_lt hlt]
  have hzero : n ≠ 0 := by omega
  have hlog : 53 ≤ n.log2 := (Nat.le_log2 hzero).2 hle
  have hdoubled : doublings n 1 = n.log2 - 52 + 1074 := by
    rw [doublings, Nat.div_one, unitsPerOne, log2_mul_two_pow hzero 1074]
    omega
  have hstep : 1 * 2 ^ doublings n 1 = 2 ^ (n.log2 - 52) * unitsPerOne := by
    rw [hdoubled, Nat.one_mul, Nat.pow_add, unitsPerOne]
  have hunits := units_nearestRank_mul n 1
  rwa [stepQuotient, hstep, divideHalfEven_mul _ _ unitsPerOne_pos, Nat.mul_one, ← Nat.mul_assoc]
    at hunits

/-- What a whole number is rounded to has its magnitude. -/
theorem nearestRank_nearestWhole (n : Nat) : nearestRank (nearestWhole n) 1 = nearestRank n 1 := by
  have hself := nearestRank_units (nearestRank n 1)
  have hcommon := nearestRank_mul (nearestWhole n) 1 unitsPerOne_pos
  rw [Nat.one_mul] at hcommon
  rw [units_nearestRank_one, hcommon] at hself
  exact hself

/-- What a whole number is rounded to is a natural number, unless it is beyond all magnitudes. -/
theorem toNat?_ofRatio_one (n : Nat) :
    (ofRatio false n 1).toNat? =
      if nearestRank n 1 < magnitudeCount then some (nearestWhole n) else none := by
  rw [ofRatio, ofRank]
  split
  · rw [toNat?, if_neg (by simp)]
    dsimp only
    rw [units_nearestRank_one, Nat.mul_mod_left, if_pos rfl, Nat.mul_div_cancel _ unitsPerOne_pos]
  · rfl

theorem nearestWhole_of_log2 {n k : Nat} (hlow : 2 ^ k ≤ n) (hhigh : n < 2 ^ (k + 1)) :
    nearestWhole n = divideHalfEven n (2 ^ (k - 52)) * 2 ^ (k - 52) := by
  have hzero : n ≠ 0 := Nat.ne_of_gt (Nat.lt_of_lt_of_le (Nat.two_pow_pos k) hlow)
  rw [nearestWhole, (Nat.log2_eq_iff hzero).2 ⟨hlow, hhigh⟩]

/-- Between `2 ^ 63` and `2 ^ 64` the magnitudes are the multiples of `2048`. -/
theorem nearestWhole_of_lt_two_pow_64 {n : Nat} (hlow : 2 ^ 63 ≤ n) (hhigh : n < 2 ^ 64) :
    nearestWhole n = divideHalfEven n 2048 * 2048 :=
  nearestWhole_of_log2 hlow hhigh

theorem nearestWhole_of_le {n : Nat} (hlow : 2 ^ 64 ≤ n) (hhigh : n ≤ 2 ^ 64 + 2048) :
    nearestWhole n = 2 ^ 64 := by
  rw [nearestWhole_of_log2 (k := 64) hlow (by omega), divideHalfEven]
  split_ifs <;> omega

theorem nearestWhole_le_two_pow_64 {n : Nat} (hlow : 2 ^ 63 ≤ n) (hhigh : n ≤ 2 ^ 64 + 2048) :
    nearestWhole n ≤ 2 ^ 64 := by
  rcases Nat.lt_or_ge n (2 ^ 64) with hlt | hle
  · have := divideHalfEven_le n 2048
    rw [nearestWhole_of_lt_two_pow_64 hlow hlt]
    omega
  · exact Nat.le_of_eq (nearestWhole_of_le hle hhigh)

/-- Numbers from the middle behind `2 ^ 64` on are rounded to greater ones. -/
theorem lt_nearestWhole {n : Nat} (h : 2 ^ 64 + 2048 < n) : 2 ^ 64 < nearestWhole n := by
  rcases Nat.lt_or_ge n (2 ^ 65) with hlt | hle
  · rw [nearestWhole_of_log2 (k := 64) (by omega) hlt, divideHalfEven]
    split_ifs <;> omega
  · exact Nat.lt_of_lt_of_le (by decide) (two_pow_le_nearestWhole (k := 65) (by decide) hle)

end Binary64

/-! ## Literals of whole numbers -/

/-- An integer by its sign and its absolute value. -/
def signed (negative : Bool) (n : Nat) : Int := if negative then -n else n

/-- The text of an integer: a minus or nothing, and digits. -/
def integerText (negative : Bool) (digits : List Char) : List Char :=
  if negative then '-' :: digits else digits

namespace Decimal

variable {digits : List Char}

/-- A sign is split off a text that does not start with another one. -/
theorem splitSign_integerText {text : List Char} (h : ∀ c ∈ text.head?, c ≠ '-' ∧ c ≠ '+')
    (negative : Bool) : splitSign (integerText negative text) = (negative, text) := by
  cases negative with
  | true => rfl
  | false =>
    rw [integerText, if_neg Bool.false_ne_true]
    unfold splitSign
    split
    · exact absurd rfl (h '-' rfl).1
    · exact absurd rfl (h '+' rfl).2
    · rfl

theorem isDecimalDigit_of_isDigit {c : Char} (h : isDigit c = true) :
    Text.isDecimalDigit c = true := by
  have hcode : 48 ≤ c.toNat ∧ c.toNat ≤ 57 := by
    simpa [isDigit, Char.le_def, UInt32.le_iff_toNat_le] using h
  have hall : ∀ code < 58, 48 ≤ code → Text.inRanges Text.decimalDigitRanges code = true := by
    decide
  exact hall c.toNat (by omega) hcode.1

theorem ne_sign_of_isDecimalDigit {c : Char} (h : Text.isDecimalDigit c = true) :
    c ≠ '-' ∧ c ≠ '+' := by
  constructor
  · rintro rfl
    exact absurd h (by decide)
  · rintro rfl
    exact absurd h (by decide)

theorem ne_sign_of_digits (hdigits : ∀ c ∈ digits, isDigit c = true) :
    ∀ c ∈ digits.head?, c ≠ '-' ∧ c ≠ '+' := fun c hc ↦
  ne_sign_of_isDecimalDigit (isDecimalDigit_of_isDigit (hdigits c (List.mem_of_mem_head? hc)))

theorem readInt?_integerText (hne : digits ≠ []) (hdigits : ∀ c ∈ digits, isDigit c = true)
    (negative : Bool) :
    readInt? (integerText negative digits) = some (signed negative (ofDigits digits)) := by
  rw [readInt?, splitSign_integerText (ne_sign_of_digits hdigits)]
  dsimp only
  rw [readNat?, if_pos ⟨hne, List.all_eq_true.2 hdigits⟩]
  rfl

theorem read?_integerText (hne : digits ≠ []) (hdigits : ∀ c ∈ digits, isDigit c = true)
    (negative : Bool) :
    read? (integerText negative digits) = some ⟨negative, ofDigits digits, 0⟩ := by
  have hspan : digits.span isDigit = (digits, []) := by
    simpa using Text.span_append hdigits (Text.stopsRun_nil isDigit)
  rw [read?, splitSign_integerText (ne_sign_of_digits hdigits)]
  dsimp only
  rw [hspan]
  simp [splitFraction, readExponent?, hne]

end Decimal

section Literals

variable {digits : List Char}

theorem notMem_digits (hdigits : ∀ c ∈ digits, Decimal.isDigit c = true) {c : Char}
    (hc : Decimal.isDigit c = false) : c ∉ digits := by
  intro hmem
  rw [hdigits c hmem] at hc
  cases hc

theorem notMem_integerText (hdigits : ∀ c ∈ digits, Decimal.isDigit c = true) {c : Char}
    (hc : Decimal.isDigit c = false) (hminus : c ≠ '-') (negative : Bool) :
    c ∉ integerText negative digits := by
  cases negative with
  | true => exact fun hmem ↦ (List.mem_cons.1 hmem).elim hminus (notMem_digits hdigits hc)
  | false => exact notMem_digits hdigits hc

theorem readSigned64?_integerText (hne : digits ≠ [])
    (hdigits : ∀ c ∈ digits, Decimal.isDigit c = true) (negative : Bool) :
    readSigned64? (String.ofList (integerText negative digits)) =
      if inSigned64 (signed negative (Decimal.ofDigits digits)) then
        some (.ofInt (signed negative (Decimal.ofDigits digits)))
      else none := by
  rw [readSigned64?, String.toList_ofList, Decimal.readInt?_integerText hne hdigits,
    Option.filter_some]
  split <;> rfl

theorem readUnsigned64?_digits (hne : digits ≠ [])
    (hdigits : ∀ c ∈ digits, Decimal.isDigit c = true) :
    readUnsigned64? (String.ofList digits) =
      if Decimal.ofDigits digits < 2 ^ 64 then some (.ofNat (Decimal.ofDigits digits))
      else none := by
  have hread : Decimal.readNat? digits = some (Decimal.ofDigits digits) :=
    if_pos ⟨hne, List.all_eq_true.2 hdigits⟩
  have hplus {rest : List Char} (h : digits = '+' :: rest) : False :=
    absurd (hdigits '+' (h ▸ List.mem_cons_self)) (by decide)
  rw [readUnsigned64?, String.toList_ofList]
  split
  · exact (hplus rfl).elim
  · rw [hread, Option.filter_some]
    split <;> simp_all

theorem Decimal.toBinary_whole (negative : Bool) (n : Nat) :
    Decimal.toBinary ⟨negative, n, 0⟩ = .ofRatio negative n 1 := by
  have hlow : (-400 : Int) ≤ 0 := by decide
  have hhigh : (0 : Int) ≤ 400 := by decide
  have hten : n * 10 ^ (0 : Int).toNat = n := Nat.mul_one n
  rw [toBinary_of_exponent hlow hhigh]
  dsimp only
  rw [Binary64.nearestDecimal, if_pos (Int.le_refl 0), hten, Binary64.ofRatio]

theorem toLower_of_isDecimalDigit {c : Char} (h : Text.isDecimalDigit c = true) :
    c.toLower = c := by
  refine dif_neg fun hupper ↦ ?_
  have hstart : LexemeForm.startsWord c = true := by
    have hletter : c.isAlpha = true := Bool.or_eq_true_iff.2 (.inl (decide_eq_true hupper))
    rw [LexemeForm.startsWord, hletter, Bool.true_or]
  rw [LexemeForm.not_isDecimalDigit_of_startsWord hstart] at h
  cases h

/-- A text that starts with a digit of any script is no name of a number. -/
theorem Binary64.read?_of_digit {c : Char} (hc : Text.isDecimalDigit c = true) (rest : List Char)
    (negative : Bool) :
    Binary64.read? (String.ofList (integerText negative (c :: rest))) =
      (Decimal.read? (integerText negative (c :: rest))).map Decimal.toBinary := by
  have hsign : ∀ d ∈ (c :: rest).head?, d ≠ '-' ∧ d ≠ '+' := by
    rintro _ ⟨⟩
    exact Decimal.ne_sign_of_isDecimalDigit hc
  have hname {name : String} (h : name.toList.head?.all (!Text.isDecimalDigit ·) = true) :
      String.ofList ((c :: rest).map Char.toLower) ≠ name := by
    rintro rfl
    rw [String.toList_ofList, List.map_cons, List.head?_cons, Option.all_some,
      toLower_of_isDecimalDigit hc, hc] at h
    cases h
  rw [read?, String.toList_ofList, Decimal.splitSign_integerText hsign]
  dsimp only
  rw [if_neg, if_neg]
  · exact hname (by decide)
  · exact fun h ↦ h.elim (hname (by decide)) (hname (by decide))

theorem Binary64.read?_integerText (hne : digits ≠ [])
    (hdigits : ∀ c ∈ digits, Decimal.isDigit c = true) (negative : Bool) :
    Binary64.read? (String.ofList (integerText negative digits)) =
      some (.ofRatio negative (Decimal.ofDigits digits) 1) := by
  have hread := Decimal.read?_integerText hne hdigits negative
  obtain ⟨c, rest, rfl⟩ := List.exists_cons_of_ne_nil hne
  rw [read?_of_digit (Decimal.isDecimalDigit_of_isDigit (hdigits c List.mem_cons_self)), hread,
    Option.map_some, Decimal.toBinary_whole]

/-- The literal of a whole number: an integer if it fits, else the nearest binary number. -/
def Literal.whole (negative : Bool) (n : Nat) : Literal :=
  if inSigned64 (signed negative n) then integer (.ofInt (signed negative n))
  else float (.ofRatio negative n 1)

/-- A number without a point has the literal of its value. -/
theorem Literal.ofNumber?_integerText (hne : digits ≠ [])
    (hdigits : ∀ c ∈ digits, Decimal.isDigit c = true) (negative : Bool) :
    ofNumber? (String.ofList (integerText negative digits)) =
      some (whole negative (Decimal.ofDigits digits)) := by
  have hpoint : (integerText negative digits).contains '.' = false := by
    rw [Bool.eq_false_iff, ne_eq, List.contains_iff_mem]
    exact notMem_integerText hdigits (by decide) (by decide) negative
  rw [ofNumber?, String.toList_ofList, hpoint, if_neg Bool.false_ne_true,
    readSigned64?_integerText hne hdigits, whole]
  by_cases hfits : inSigned64 (signed negative (Decimal.ofDigits digits))
  · rw [if_pos hfits, if_pos hfits]
  · rw [if_neg hfits, if_neg hfits, Binary64.read?_integerText hne hdigits, Option.map_some]

theorem Literal.ofToken_integerText (hne : digits ≠ [])
    (hdigits : ∀ c ∈ digits, Decimal.isDigit c = true) {negative : Bool} {token : Token}
    (hkind : token.kind = .numberLiteral)
    (htext : token.text = String.ofList (integerText negative digits)) :
    ofToken token = whole negative (Decimal.ofDigits digits) := by
  rw [ofToken, hkind]
  dsimp only
  rw [htext, ofNumber?_integerText hne hdigits, Option.getD_some]

end Literals

/--
The unsigned integer of 64 bits that the literal of a natural number is equal to. From `2 ^ 63` on
this may be another number.
-/
theorem Literal.toUnsigned64?_whole (n : Nat) :
    (whole false n).toUnsigned64? =
      if n < 2 ^ 63 then some (.ofNat n)
      else if n ≤ 2 ^ 64 + 2048 then some (.ofNat (min (Binary64.nearestWhole n) (2 ^ 64 - 1)))
      else none := by
  have hfits : inSigned64 (signed false n) = decide (n < 2 ^ 63) := by
    rw [Bool.eq_iff_iff]
    simp only [inSigned64, signed, Bool.false_eq_true, if_false, Bool.and_eq_true,
      decide_eq_true_eq]
    omega
  rw [whole, hfits]
  by_cases hlt : n < 2 ^ 63
  · have hvalue : (Int64.ofInt (signed false n)).toInt = n :=
      Int64.toInt_ofInt_of_le (by simp [signed]) (by simp [signed]; omega)
    rw [if_pos (decide_eq_true hlt), if_pos hlt, toUnsigned64?, hvalue,
      if_pos (Int.natCast_nonneg n), Int.toNat_natCast]
  rw [if_neg (decide_eq_true_iff.not.2 hlt), if_neg hlt, toUnsigned64?,
    Binary64.toNat?_ofRatio_one]
  by_cases hnear : n ≤ 2 ^ 64 + 2048
  · have hfinite : Binary64.nearestRank n 1 < magnitudeCount := by
      rcases Nat.lt_or_ge n (2 ^ 64) with hbelow | habove
      · exact Binary64.nearestRank_lt_magnitudeCount hbelow
      · rw [← Binary64.nearestRank_nearestWhole, Binary64.nearestWhole_of_le habove hnear]
        decide +kernel
    have hle : Binary64.nearestWhole n ≤ 2 ^ 64 :=
      Binary64.nearestWhole_le_two_pow_64 (Nat.not_lt.1 hlt) hnear
    rw [if_pos hnear, if_pos hfinite]
    dsimp only
    rw [if_pos hle]
  · have hgreater := Binary64.lt_nearestWhole (Nat.not_le.1 hnear)
    rw [if_neg hnear]
    by_cases hfinite : Binary64.nearestRank n 1 < magnitudeCount
    · rw [if_pos hfinite]
      dsimp only
      rw [if_neg (Nat.not_le.2 hgreater)]
    · rw [if_neg hfinite]

end SchemaLang
