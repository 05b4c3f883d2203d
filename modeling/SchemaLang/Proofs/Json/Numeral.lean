import SchemaLang.Json.Reader
import SchemaLang.Json.Writer
import SchemaLang.Proofs.Number.Digits
import SchemaLang.Proofs.Number.Shortest

/-!
# Numbers of JSON texts

A numeral is a number as it is written in a JSON text: a sign, digits before and behind the point,
and an exponent. Its text is read as those parts, up to a character that continues no number
(`number?_text`). Integers and finite binary numbers are written as numerals; the numeral of an
integer has neither point nor exponent and is read as that integer, and that of a binary number has
one of both and is read as some binary number. A short number is read as the same one, since its
digits are few enough for scaling to be exact (`exists_numeral_of_isShort`).
-/

namespace SchemaLang.Json

open Decimal (isDigit ofDigits toDigits)
open Text (StopsRun stopsRun_nil stopsRun_cons span_append)

/-- The text of the digits behind a point, with the point. -/
def fractionText : List Char → List Char
  | [] => []
  | digits => '.' :: digits

/-- The text of an exponent with its mark and its sign. -/
def exponentText : Option Int → List Char
  | none => []
  | some n => 'e' :: ((if n < 0 then ['-'] else ['+']) ++ toDigits n.natAbs)

/-- A number of a JSON text by its parts. -/
structure Numeral where
  negative : Bool
  whole : List Char
  fraction : List Char
  exponent : Option Int
  whole_digits : ∀ c ∈ whole, isDigit c = true
  fraction_digits : ∀ c ∈ fraction, isDigit c = true
  whole_ne_nil : whole ≠ []
  whole_of_zero : whole.head? = some '0' → whole = ['0']

/-- Whether a character continues a number. -/
def continuesNumber (c : Char) : Bool := isDigit c || c = '.' || c = 'e' || c = 'E'

/-- The text behind a number does not continue it. -/
abbrev StopsNumber (rest : List Char) : Prop := StopsRun continuesNumber rest

theorem not_isDigit_of_stops {c : Char} (h : continuesNumber c = false) : isDigit c = false := by
  simp only [continuesNumber, Bool.or_eq_false_iff] at h
  exact h.1.1.1

theorem ne_point_of_stops {c : Char} (h : continuesNumber c = false) :
    decide (c = '.') = false := by
  simp only [continuesNumber, Bool.or_eq_false_iff] at h
  exact h.1.1.2

theorem StopsNumber.stopsRun {rest : List Char} (h : StopsNumber rest) : StopsRun isDigit rest :=
  fun c hc ↦ not_isDigit_of_stops (h c hc)

namespace Numeral

variable (numeral : Numeral) {rest : List Char}

/-- The text of a numeral. -/
def text : List Char :=
  (if numeral.negative then ['-'] else []) ++
    (numeral.whole ++ (fractionText numeral.fraction ++ exponentText numeral.exponent))

/-- The value of a numeral. -/
def value? : Option Json :=
  ofParts? numeral.negative numeral.whole numeral.fraction numeral.exponent

end Numeral

/-! ## Reading the parts -/

/-- How an exponent can be written: not at all, or a mark, a sign or none, and digits. -/
inductive IsExponent : Option Int → List Char → Prop
  | missing : IsExponent none []
  | written {mark : Char} (hmark : mark = 'e' ∨ mark = 'E') {sign digits : List Char}
      (hsign : sign = [] ∨ sign = ['+'] ∨ sign = ['-']) (hne : digits ≠ [])
      (hdigits : ∀ c ∈ digits, isDigit c = true) :
      IsExponent (some (if sign = ['-'] then -(ofDigits digits : Int) else ofDigits digits))
        (mark :: (sign ++ digits))

theorem isExponent_exponentText (exponent : Option Int) :
    IsExponent exponent (exponentText exponent) := by
  cases exponent with
  | none => exact .missing
  | some n =>
    have hexponent := @IsExponent.written 'e' (.inl rfl) (if n < 0 then ['-'] else ['+']) _
      (by split <;> simp)
      (Decimal.toDigits_ne_nil n.natAbs) (fun c ↦ Decimal.isDigit_of_mem_toDigits)
    have hvalue : (if (if n < 0 then ['-'] else ['+']) = ['-'] then -(n.natAbs : Int)
        else n.natAbs) = n := by
      by_cases hn : n < 0
      · rw [if_pos hn, if_pos rfl]
        omega
      · rw [if_neg hn, if_neg (by decide)]
        omega
    rwa [Decimal.ofDigits_toDigits, hvalue] at hexponent

theorem splitSign_append {sign digits : List Char}
    (hsign : sign = [] ∨ sign = ['+'] ∨ sign = ['-']) (hne : digits ≠ [])
    (hdigits : ∀ c ∈ digits, isDigit c = true) (rest : List Char) :
    Decimal.splitSign (sign ++ (digits ++ rest)) = (decide (sign = ['-']), digits ++ rest) := by
  obtain ⟨c, digits, rfl⟩ := List.exists_cons_of_ne_nil hne
  rcases hsign with rfl | rfl | rfl
  · have hdigit := hdigits c List.mem_cons_self
    unfold Decimal.splitSign
    split
    case h_1 heq =>
      cases heq
      exact absurd hdigit (by decide)
    case h_2 heq =>
      cases heq
      exact absurd hdigit (by decide)
    case h_3 => rfl
  · rfl
  · rfl

theorem IsExponent.exponent?_append {exponent : Option Int} {text : List Char}
    (h : IsExponent exponent text) {rest : List Char} (hrest : StopsNumber rest) :
    exponent? (text ++ rest) = some (exponent, rest) := by
  cases h with
  | missing =>
    cases rest with
    | nil => rfl
    | cons c rest =>
      have hstop := stopsRun_cons.1 hrest
      simp only [continuesNumber, Bool.or_eq_false_iff, decide_eq_false_iff_not] at hstop
      have hmark : ¬(c = 'e' ∨ c = 'E') := not_or.2 ⟨hstop.1.2, hstop.2⟩
      simp only [List.nil_append, exponent?, if_neg hmark]
  | @written mark hmark sign digits hsign hne hdigits =>
    have hspan : (digits ++ rest).span isDigit = (digits, rest) :=
      span_append hdigits hrest.stopsRun
    rw [List.cons_append, List.append_assoc, exponent?]
    simp only [hmark, if_true, splitSign_append hsign hne hdigits, hspan]
    obtain ⟨c, digits, rfl⟩ := List.exists_cons_of_ne_nil hne
    simp only [decide_eq_true_eq]

theorem IsExponent.stopsRun {exponent : Option Int} {text : List Char}
    (h : IsExponent exponent text) {rest : List Char} (hrest : StopsNumber rest) {p : Char → Bool}
    (hsmall : p 'e' = false) (hlarge : p 'E' = false)
    (hp : ∀ c, continuesNumber c = false → p c = false) : StopsRun p (text ++ rest) := by
  cases h with
  | missing => exact fun c hc ↦ hp c (hrest c hc)
  | written hmark =>
    rcases hmark with rfl | rfl
    · exact stopsRun_cons.2 hsmall
    · exact stopsRun_cons.2 hlarge

theorem digitsAfter?_fractionText {fraction behind : List Char}
    (hfraction : ∀ c ∈ fraction, isDigit c = true) (hdigit : StopsRun isDigit behind)
    (hpoint : StopsRun (· = '.') behind) :
    digitsAfter? (· = '.') (fractionText fraction ++ behind) = some (fraction, behind) := by
  cases fraction with
  | nil =>
    cases behind with
    | nil => rfl
    | cons c behind =>
      have hpoint := stopsRun_cons.1 hpoint
      simp only [fractionText, List.nil_append, digitsAfter?, hpoint, Bool.false_eq_true, if_false]
  | cons d digits =>
    have hspan : (d :: (digits ++ behind)).span isDigit = (d :: digits, behind) :=
      span_append hfraction hdigit
    simp only [fractionText, List.cons_append, digitsAfter?, decide_true, if_true, hspan]

/-- A number behind its sign. -/
def unsigned? (negative : Bool) (cs : List Char) : Option (Json × List Char) := do
  let (whole, rest) := cs.span isDigit
  if whole = [] ∨ (whole.head? = some '0' ∧ whole ≠ ['0']) then none
  else
    let (fraction, rest) ← digitsAfter? (· = '.') rest
    let (exponent, rest) ← exponent? rest
    let value ← ofParts? negative whole fraction exponent
    return (value, rest)

/-- The parts of a number behind its sign are read, up to what continues no number. -/
theorem unsigned?_parts {negative : Bool} {whole fraction part rest : List Char}
    {exponent : Option Int} (hwhole : ∀ c ∈ whole, isDigit c = true) (hne : whole ≠ [])
    (hzero : whole.head? = some '0' → whole = ['0']) (hfraction : ∀ c ∈ fraction, isDigit c = true)
    (hexponent : IsExponent exponent part) (h : StopsNumber rest) :
    unsigned? negative (whole ++ (fractionText fraction ++ (part ++ rest))) =
      (ofParts? negative whole fraction exponent).map fun value ↦ (value, rest) := by
  have hdigit : StopsRun isDigit (part ++ rest) :=
    hexponent.stopsRun h (by decide) (by decide) fun c ↦ not_isDigit_of_stops
  have hpoint : StopsRun (· = '.') (part ++ rest) :=
    hexponent.stopsRun h (by decide) (by decide) fun c ↦ ne_point_of_stops
  have hbehind : StopsRun isDigit (fractionText fraction ++ (part ++ rest)) := by
    cases fraction with
    | nil => exact hdigit
    | cons d digits => exact stopsRun_cons.2 (by decide)
  have hspan : (whole ++ (fractionText fraction ++ (part ++ rest))).span isDigit =
      (whole, fractionText fraction ++ (part ++ rest)) := span_append hwhole hbehind
  have hleading : ¬(whole = [] ∨ (whole.head? = some '0' ∧ whole ≠ ['0'])) := by
    rintro (hnil | ⟨hhead, hlonger⟩)
    · exact hne hnil
    · exact hlonger (hzero hhead)
  simp only [unsigned?, hspan, if_neg hleading, digitsAfter?_fractionText hfraction hdigit hpoint,
    hexponent.exponent?_append h, Option.bind_eq_bind, Option.bind_some]
  rw [Option.map_eq_bind]
  rfl

theorem number?_minus (cs : List Char) : number? ('-' :: cs) = unsigned? true cs := rfl

theorem number?_of_ne_minus {c : Char} (hminus : c ≠ '-') (cs : List Char) :
    number? (c :: cs) = unsigned? false (c :: cs) := by
  unfold number?
  split
  case h_1 heq =>
    split at heq
    · simp_all
    · cases heq
      rfl

theorem number?_of_digit {c : Char} (h : isDigit c = true) (cs : List Char) :
    number? (c :: cs) = unsigned? false (c :: cs) := by
  apply number?_of_ne_minus
  rintro rfl
  revert h
  decide

namespace Numeral

variable (numeral : Numeral) {rest : List Char}

/-- The text behind the sign of a numeral is read as the parts of the numeral. -/
theorem unsigned?_text (h : StopsNumber rest) :
    unsigned? numeral.negative (numeral.whole ++
        (fractionText numeral.fraction ++ (exponentText numeral.exponent ++ rest))) =
      numeral.value?.map fun value ↦ (value, rest) :=
  unsigned?_parts numeral.whole_digits numeral.whole_ne_nil numeral.whole_of_zero
    numeral.fraction_digits (isExponent_exponentText numeral.exponent) h

/-- The text of a numeral is read as its value, up to what continues no number. -/
theorem number?_text (h : StopsNumber rest) :
    number? (numeral.text ++ rest) = numeral.value?.map fun value ↦ (value, rest) := by
  rw [← numeral.unsigned?_text h, text, List.append_assoc, List.append_assoc, List.append_assoc]
  cases numeral.negative with
  | true => exact number?_minus _
  | false =>
    obtain ⟨c, digits, hcons⟩ := List.exists_cons_of_ne_nil numeral.whole_ne_nil
    have hdigit : isDigit c = true := by
      apply numeral.whole_digits
      rw [hcons]
      exact List.mem_cons_self
    rw [hcons]
    exact number?_of_digit hdigit _

/-- A numeral with a point or an exponent. -/
def IsParted : Prop := numeral.fraction ≠ [] ∨ numeral.exponent ≠ none

/-- A numeral with a point or an exponent is scaled. -/
theorem value?_of_isParted (h : numeral.IsParted) :
    numeral.value? =
      let x := (Decimal.bounded numeral.negative numeral.whole numeral.fraction
        (numeral.exponent.getD 0)).toScaledBinary
      if x.isFinite then some (.float x) else none := by
  have hkept : ¬(numeral.fraction = [] ∧ numeral.exponent = none) :=
    fun hnone ↦ h.elim (· hnone.1) (· hnone.2)
  simp only [value?, ofParts?, if_neg hkept]

/-- A numeral with a point or an exponent is read as a binary number, if at all. -/
theorem exists_float_of_value? {value : Json} (hparted : numeral.IsParted)
    (h : numeral.value? = some value) : ∃ x : Binary64, x.isFinite = true ∧ value = .float x := by
  rw [numeral.value?_of_isParted hparted] at h
  dsimp only at h
  split at h
  case isTrue hfinite =>
    cases h
    exact ⟨_, hfinite, rfl⟩
  case isFalse => cases h

/-! ## Integers -/

/-- The numeral of an integer. -/
def ofInt (n : Int) : Numeral where
  negative := n < 0
  whole := toDigits n.natAbs
  fraction := []
  exponent := none
  whole_digits _ := Decimal.isDigit_of_mem_toDigits
  fraction_digits _ h := absurd h List.not_mem_nil
  whole_ne_nil := Decimal.toDigits_ne_nil _
  whole_of_zero := Decimal.toDigits_of_head?

theorem text_ofInt (n : Int) : (ofInt n).text = integerText n := by
  simp only [text, ofInt, integerText, fractionText, exponentText, List.append_nil,
    decide_eq_true_eq]

theorem value?_ofInt {n : Int} (hlow : -2 ^ 63 ≤ n) (hhigh : n < 2 ^ 64) :
    (ofInt n).value? = some (.integer n) := by
  have hinteger : integer? (decide (n < 0)) (toDigits n.natAbs) = some n := by
    simp only [integer?, Decimal.ofDigits_toDigits, decide_eq_true_eq]
    by_cases hn : n < 0
    · rw [if_pos hn, if_pos (by omega)]
      congr 1
      omega
    · rw [if_neg hn, if_pos (by omega)]
      congr 1
      omega
  simp only [value?, ofInt, ofParts?, and_self, if_true, hinteger]

end Numeral

/-! ## Binary numbers -/

/-- The decimal that a numeral denotes. -/
def Numeral.decimal (numeral : Numeral) : Decimal :=
  ⟨numeral.negative, ofDigits (numeral.whole ++ numeral.fraction),
    numeral.exponent.getD 0 - numeral.fraction.length⟩

/--
A text without a sign is the text of a decimal. It has a point or an exponent, and zeros may stand
behind the digits of the decimal, up to the first place behind the point.
-/
def IsTextOf (body : List Char) (digits : Nat) (exponent : Int) : Prop :=
  ∀ negative : Bool, ∃ (numeral : Numeral) (zeros : Nat),
    numeral.text = (if negative then ['-'] else []) ++ body ∧ numeral.IsParted ∧
      numeral.decimal = ⟨negative, digits * 10 ^ zeros, exponent - zeros⟩ ∧
      zeros ≤ (exponent + 1).toNat

section Binary

variable {digits : List Char}

theorem isTextOf_fraction {whole fraction : List Char} {n : Nat} {exponent : Int}
    (hwhole : ∀ c ∈ whole, isDigit c = true) (hfraction : ∀ c ∈ fraction, isDigit c = true)
    (hnil : whole ≠ []) (hzero : whole.head? = some '0' → whole = ['0']) (hparted : fraction ≠ [])
    {zeros : Nat} (hdigits : ofDigits (whole ++ fraction) = n * 10 ^ zeros)
    (hplaces : zeros - exponent = fraction.length) (hzeros : zeros ≤ (exponent + 1).toNat) :
    IsTextOf (whole ++ '.' :: fraction) n exponent := by
  intro negative
  refine ⟨⟨negative, whole, fraction, none, hwhole, hfraction, hnil, hzero⟩, zeros, ?_,
    .inl hparted, ?_, hzeros⟩
  · obtain ⟨d, digits, rfl⟩ := List.exists_cons_of_ne_nil hparted
    simp only [Numeral.text, fractionText, exponentText, List.append_nil]
  · have hexponent : (0 : Int) - fraction.length = exponent - zeros := by omega
    rw [Numeral.decimal, hdigits, Option.getD_none, hexponent]

theorem isDigit_zeros : ∀ c ∈ ['0'], isDigit c = true :=
  List.forall_mem_singleton.2 (by decide)

theorem isDigit_of_mem_replicate {n : Nat} {c : Char} (h : c ∈ List.replicate n '0') :
    isDigit c = true := by
  rw [List.eq_of_mem_replicate h]
  decide

theorem isTextOf_layPositional (hdigits : ∀ c ∈ digits, isDigit c = true) (hnil : digits ≠ [])
    (hzero : digits.head? ≠ some '0') {point exponent : Int}
    (hpoint : point = exponent + digits.length) :
    IsTextOf (NumberFormat.layPositional true digits point) (ofDigits digits) exponent := by
  unfold NumberFormat.layPositional
  split
  case isTrue =>
    have hfraction : ∀ c ∈ List.replicate (-point).toNat '0' ++ digits, isDigit c = true := by
      intro c hc
      rcases List.mem_append.1 hc with hc | hc
      · exact isDigit_of_mem_replicate hc
      · exact hdigits c hc
    have hvalue : ofDigits (['0'] ++ (List.replicate (-point).toNat '0' ++ digits)) =
        ofDigits digits * 10 ^ 0 := by
      rw [← List.append_assoc, Nat.pow_zero, Nat.mul_one]
      exact Decimal.ofDigits_zeros_append ((-point).toNat + 1) digits
    apply isTextOf_fraction isDigit_zeros hfraction (List.cons_ne_nil _ _) (fun _ ↦ rfl)
      (List.append_ne_nil_of_right_ne_nil _ hnil) hvalue
    · rw [List.length_append, List.length_replicate]
      omega
    · exact Nat.zero_le _
  case isFalse hpositive =>
  split
  case isTrue hlength =>
    have hwhole : ∀ c ∈ digits ++ List.replicate (point.toNat - digits.length) '0',
        isDigit c = true := by
      intro c hc
      rcases List.mem_append.1 hc with hc | hc
      · exact hdigits c hc
      · exact isDigit_of_mem_replicate hc
    have hhead : (digits ++ List.replicate (point.toNat - digits.length) '0').head? ≠ some '0' := by
      rwa [List.head?_append_of_ne_nil _ hnil]
    have hvalue : ofDigits (digits ++ List.replicate (point.toNat - digits.length) '0' ++ ['0']) =
        ofDigits digits * 10 ^ (point.toNat - digits.length + 1) := by
      rw [List.append_assoc, ← List.replicate_succ', Decimal.ofDigits_append_zeros]
    apply isTextOf_fraction hwhole isDigit_zeros (List.append_ne_nil_of_left_ne_nil hnil _)
      (fun h ↦ absurd h hhead) (List.cons_ne_nil _ _) hvalue
    · rw [List.length_singleton]
      omega
    · omega
  case isFalse hlength =>
    have hhead : (digits.take point.toNat).head? ≠ some '0' := by
      rwa [List.head?_take, if_neg (by omega)]
    have htake : digits.take point.toNat ≠ [] := by
      rw [ne_eq, List.take_eq_nil_iff, not_or]
      exact ⟨by omega, hnil⟩
    have hdrop : digits.drop point.toNat ≠ [] := by
      rw [ne_eq, List.drop_eq_nil_iff]
      omega
    have hvalue : ofDigits (digits.take point.toNat ++ digits.drop point.toNat) =
        ofDigits digits * 10 ^ 0 := by
      rw [List.take_append_drop, Nat.pow_zero, Nat.mul_one]
    apply isTextOf_fraction (fun c hc ↦ hdigits c (List.mem_of_mem_take hc))
      (fun c hc ↦ hdigits c (List.mem_of_mem_drop hc)) htake (fun h ↦ absurd h hhead) hdrop hvalue
    · rw [List.length_drop]
      omega
    · exact Nat.zero_le _

theorem isTextOf_layScientific (hdigits : ∀ c ∈ digits, isDigit c = true) (hnil : digits ≠ [])
    (hzero : digits.head? ≠ some '0') {shown exponent : Int}
    (hshown : shown + 1 = exponent + digits.length) :
    IsTextOf (NumberFormat.layScientific true digits shown) (ofDigits digits) exponent := by
  intro negative
  obtain ⟨d, fraction, rfl⟩ := List.exists_cons_of_ne_nil hnil
  have hfirst : ∀ c ∈ [d], isDigit c = true :=
    List.forall_mem_singleton.2 (hdigits d List.mem_cons_self)
  have hfraction : ∀ c ∈ fraction, isDigit c = true :=
    fun c hc ↦ hdigits c (List.mem_cons_of_mem d hc)
  refine ⟨⟨negative, [d], fraction, some shown, hfirst, hfraction, List.cons_ne_nil _ _,
    fun h ↦ absurd h hzero⟩, 0, ?_, .inr (Option.some_ne_none _), ?_, Nat.zero_le _⟩
  · cases fraction <;>
      simp [Numeral.text, fractionText, exponentText, NumberFormat.layScientific]
  · have hexponent : shown - fraction.length = exponent - (0 : Nat) := by
      rw [List.length_cons] at hshown
      omega
    rw [Numeral.decimal, Option.getD_some, hexponent, Nat.pow_zero, Nat.mul_one]
    rfl

/-- A magnitude is written as its decimal. -/
theorem isTextOf_layMagnitude (rank : Nat) : IsTextOf (NumberFormat.json.layMagnitude rank)
    (Binary64.decimalOf .even rank).digits (Binary64.decimalOf .even rank).exponent := by
  unfold NumberFormat.layMagnitude
  split
  case isTrue hrank =>
    have hvalue : ofDigits (['0'] ++ ['0']) = 0 * 10 ^ 1 := rfl
    rw [hrank, Binary64.decimalOf_zero]
    exact isTextOf_fraction isDigit_zeros isDigit_zeros (List.cons_ne_nil _ _) (fun _ ↦ rfl)
      (List.cons_ne_nil _ _) hvalue rfl (Nat.le_refl 1)
  case isFalse hrank =>
    have hnonzero : (Binary64.shortest .even rank).digits ≠ 0 :=
      Binary64.digits_shortest_ne_zero hrank
    rw [Binary64.decimalOf_of_ne_zero hrank]
    dsimp only [NumberFormat.json]
    -- The digits are kept opaque: nothing here depends on how they are found.
    generalize Binary64.shortest .even rank = found at hnonzero ⊢
    have hzero := Decimal.head?_toDigits_ne_zero hnonzero
    have hvalue := Decimal.ofDigits_toDigits found.digits
    have hdigits : ∀ c ∈ toDigits found.digits, isDigit c = true :=
      fun c ↦ Decimal.isDigit_of_mem_toDigits
    have hnil := Decimal.toDigits_ne_nil found.digits
    generalize toDigits found.digits = digits at hzero hvalue hdigits hnil ⊢
    rw [← hvalue]
    split
    · exact isTextOf_layPositional hdigits hnil hzero (by omega)
    · exact isTextOf_layScientific hdigits hnil hzero (by omega)

theorem floatText_finite (negative : Bool) (rank : Fin magnitudeCount) :
    floatText (.finite negative rank) =
      (if negative then ['-'] else []) ++ NumberFormat.json.layMagnitude rank := by
  have hfinite : (Binary64.finite negative rank).isFinite = true := rfl
  rw [floatText, if_pos hfinite, NumberFormat.lay, String.toList_ofList]

/-- The text of a finite binary number is that of its decimal. -/
theorem exists_numeral_floatText {x : Binary64} (h : x.isFinite = true) :
    ∃ numeral : Numeral, numeral.text = floatText x ∧ numeral.IsParted := by
  cases x with
  | finite negative rank =>
    obtain ⟨numeral, zeros, htext, hparted, -⟩ := isTextOf_layMagnitude rank.val negative
    refine ⟨numeral, ?_, hparted⟩
    rw [htext, floatText_finite]
  | infinite negative => cases h
  | nan => cases h

/-- The decimal of a numeral with few digits is rounded once. -/
theorem Numeral.value?_eq_toBinary (numeral : Numeral) (hparted : numeral.IsParted)
    (hdigits : numeral.decimal.digits < 2 ^ 53) (hlow : -22 ≤ numeral.decimal.exponent)
    (hhigh : numeral.decimal.exponent ≤ 22) :
    numeral.value? =
      if numeral.decimal.toBinary.isFinite then some (.float numeral.decimal.toBinary)
      else none := by
  have hbounded : Decimal.bounded numeral.negative numeral.whole numeral.fraction
      (numeral.exponent.getD 0) = numeral.decimal :=
    Decimal.bounded_of_lt _ _ (Nat.lt_trans hdigits (by decide))
  rw [numeral.value?_of_isParted hparted, hbounded,
    Decimal.toScaledBinary_eq_toBinary hdigits hlow hhigh]

/-- A short number is the value of its text. -/
theorem exists_numeral_of_isShort {x : Binary64} (h : x.IsShort) :
    ∃ numeral : Numeral, numeral.text = floatText x ∧ numeral.value? = some (.float x) := by
  cases x with
  | finite negative rank =>
    obtain ⟨numeral, zeros, htext, hparted, hdecimal, hzeros⟩ :=
      isTextOf_layMagnitude rank.val negative
    have hexponent := Binary64.exponent_le_of_isShort h
    obtain ⟨hshort, hlow⟩ := h
    have hdigits : numeral.decimal.digits < 2 ^ 53 := by
      rw [hdecimal]
      exact Nat.lt_of_le_of_lt
        (Nat.mul_le_mul_left _ (Nat.pow_le_pow_right (by decide) hzeros)) hshort
    have hplaces : -22 ≤ numeral.decimal.exponent ∧ numeral.decimal.exponent ≤ 22 := by
      rw [hdecimal]
      dsimp only
      omega
    have hbinary : numeral.decimal.toBinary = .finite negative rank := by
      rw [Decimal.toBinary_of_exponent (by omega) (by omega), hdecimal,
        Binary64.nearestDecimal_zeros, Binary64.nearestDecimal_decimalOf, Binary64.ofRank,
        dif_pos rank.isLt]
    refine ⟨numeral, ?_, ?_⟩
    · rw [htext, floatText_finite]
    · rw [numeral.value?_eq_toBinary hparted hdigits hplaces.1 hplaces.2, hbinary]
      rfl
  | infinite negative => cases h
  | nan => cases h

end Binary

end SchemaLang.Json
