import Mathlib.Tactic.NormNum
import SchemaLang.Proofs.Number.Value
import SchemaLang.Resolve.Width

/-!
# Widths and lengths by exact values

The width of a string depends on the exact value of its `max` only, and it is the least one whose
length can count to that value (`Field.encodedType?_of_max`). Rounding an integer to a binary number
does not show, since it takes no value across a bound. The length of a byte array is the exact value
of a literal too, but for the literals of `2 ^ 64` (`Field.fixedLength_values`).
-/

namespace SchemaLang

/-! ## Widths of strings -/

namespace NumberValue

/-- The greatest length that the given bits can count to. -/
def greatestLength (bits : Nat) : NumberValue := ((2 ^ bits - 1 : Nat) : ℚ)

/-- The bits of the length of a string, of which 64 are enough for any value. -/
def lengthBits (m : NumberValue) : Nat :=
  if m ≤ greatestLength 8 then 8
  else if m ≤ greatestLength 16 then 16
  else if m ≤ greatestLength 32 then 32
  else 64

theorem greatestLength_mono {bits others : Nat} (h : bits ≤ others) :
    greatestLength bits ≤ greatestLength others := by
  have hpow : 2 ^ bits - 1 ≤ 2 ^ others - 1 :=
    Nat.sub_le_sub_right (Nat.pow_le_pow_right (by decide) h) 1
  rw [greatestLength, greatestLength, WithBotTop.coe_le_coe, Nat.cast_le]
  exact hpow

variable {m k : NumberValue}

/-- The bits can count to the value, unless it is beyond all lengths. -/
theorem le_greatestLength_lengthBits (m : NumberValue) :
    m ≤ greatestLength (lengthBits m) ∨ lengthBits m = 64 ∧ greatestLength 64 < m := by
  unfold lengthBits
  split_ifs with h8 h16 h32
  · exact .inl h8
  · exact .inl h16
  · exact .inl h32
  · exact (le_or_gt m (greatestLength 64)).imp_right fun h ↦ ⟨rfl, h⟩

/-- No fewer bits can count to the value. -/
theorem lengthBits_le {bits : Nat} (hbits : bits ∈ [8, 16, 32, 64]) (h : m ≤ greatestLength bits) :
    lengthBits m ≤ bits := by
  have hless {fewer : Nat} (hnot : ¬m ≤ greatestLength fewer) : fewer < bits := by
    by_contra hle
    exact hnot (h.trans (greatestLength_mono (Nat.not_lt.1 hle)))
  simp only [List.mem_cons, List.not_mem_nil, or_false] at hbits
  unfold lengthBits
  split_ifs with h8 h16 h32
  · omega
  · have := hless h8
    omega
  · have := hless h16
    omega
  · have := hless h32
    omega

theorem lengthBits_mem (m : NumberValue) : lengthBits m ∈ [8, 16, 32, 64] := by
  unfold lengthBits
  split_ifs <;> decide

theorem lengthBits_mono (h : m ≤ k) : lengthBits m ≤ lengthBits k := by
  rcases le_greatestLength_lengthBits k with hk | ⟨hk, -⟩
  · exact lengthBits_le (lengthBits_mem k) (h.trans hk)
  · rw [hk]
    unfold lengthBits
    split_ifs <;> decide

/-- Values beyond `2 ^ 53` have all bits, and those below zero the fewest. -/
theorem lengthBits_of_large (h : ((2 ^ 53 : ℚ) : NumberValue) ≤ m) : lengthBits m = 64 := by
  have hnot {bits : Nat} (hbits : bits ≤ 53) : ¬m ≤ greatestLength bits := by
    intro hm
    have hle := (h.trans hm).trans (greatestLength_mono hbits)
    rw [greatestLength, WithBotTop.coe_le_coe] at hle
    norm_num at hle
  rw [lengthBits, if_neg (hnot (by decide)), if_neg (hnot (by decide)), if_neg (hnot (by decide))]

theorem lengthBits_of_nonpos (h : m ≤ ((0 : ℚ) : NumberValue)) : lengthBits m = 8 := by
  refine if_pos (h.trans ?_)
  rw [greatestLength, WithBotTop.coe_le_coe]
  exact Nat.cast_nonneg _

end NumberValue

open NumberValue (greatestLength lengthBits)

/-- Rounding up and cutting off beyond the greatest length keeps the side of a shorter length. -/
theorem Binary64.ceilUnsigned64_le_iff {x : Binary64} {m : NumberValue} (h : x.value? = some m)
    {t : Nat} (ht : t < maxUnsigned64) :
    x.ceilUnsigned64 ≤ t ↔ m ≤ ((t : ℚ) : NumberValue) := by
  cases x with
  | nan => cases h
  | infinite negative =>
    rw [Binary64.value?, Option.some.injEq] at h
    rw [← h, ceilUnsigned64]
    cases negative with
    | false => exact iff_of_false (Nat.not_le.2 ht) (by simp)
    | true => exact iff_of_true (Nat.zero_le t) bot_le
  | finite negative rank =>
    rw [Binary64.value?, Option.some.injEq] at h
    rw [← h, WithBotTop.coe_le_coe, ceilUnsigned64]
    cases negative with
    | true =>
      have hle : -magnitude rank ≤ t :=
        (neg_nonpos.2 (magnitude_nonneg _)).trans (Nat.cast_nonneg t)
      rw [if_pos rfl, if_pos rfl]
      exact iff_of_true (Nat.zero_le t) hle
    | false =>
      have hpos := unitsPerOne_pos
      have hceil : (units rank + unitsPerOne - 1) / unitsPerOne ≤ t ↔
          units rank ≤ t * unitsPerOne := by
        rw [← Nat.lt_succ_iff, Nat.div_lt_iff_lt_mul hpos, Nat.succ_mul]
        omega
      rw [if_neg Bool.false_ne_true, if_neg Bool.false_ne_true, magnitude_le_iff, ← hceil]
      exact min_le_iff.trans (or_iff_right (Nat.not_le.2 ht))

/-- The type for a length has the bits of every value that lies between the same bounds. -/
theorem Primitive.width?_stringFor {length : Nat} {m : NumberValue}
    (h : ∀ bits ∈ [8, 16, 32], length ≤ 2 ^ bits - 1 ↔ m ≤ greatestLength bits) :
    (stringFor length).isSizedString = true ∧
      (stringFor length).width? = some (lengthBits m) := by
  simp only [List.forall_mem_cons] at h
  obtain ⟨h8, h16, h32, -⟩ := h
  simp only [stringFor, lengthBits, h8, h16, h32]
  split_ifs <;> exact ⟨rfl, rfl⟩

/-- The width of a string is that of the exact value of its `max`. -/
theorem Field.width?_of_max {field : Field} {max : Literal} {m : NumberValue}
    (htype : field.type = "string") (hmax : field.max = some max) (hvalue : max.value? = some m) :
    ∃ type, field.encodedType? = some type ∧ type.isSizedString = true ∧
      type.width? = some (lengthBits m) := by
  obtain ⟨x, value, hbinary, hx, hside⟩ := Literal.exists_toBinary? hvalue
  have hprimitive : field.primitive? = some .string := by
    rw [primitive?, htype]
    exact Primitive.ofName?_name .string
  have hlength : (field.max.bind Literal.maxLength?).getD defaultStringMax =
      x.ceilUnsigned64 := by
    rw [hmax, Option.bind_some, Literal.maxLength?, hbinary]
    rfl
  have hbounds : ∀ bits ∈ [8, 16, 32], x.ceilUnsigned64 ≤ 2 ^ bits - 1 ↔
      m ≤ greatestLength bits := by
    intro bits hbits
    have hsmall : 2 ^ bits - 1 < maxUnsigned64 ∧ 2 ^ bits - 1 < 2 ^ 53 := by
      simp only [List.mem_cons, List.not_mem_nil, or_false] at hbits
      rcases hbits with rfl | rfl | rfl <;> decide
    rw [Binary64.ceilUnsigned64_le_iff hx hsmall.1, hside _ hsmall.2]
    rfl
  refine ⟨.stringFor x.ceilUnsigned64, ?_, Primitive.width?_stringFor hbounds⟩
  rw [encodedType?, hprimitive, Option.map_some, if_pos rfl, hlength]

/--
A string whose `max` is a number of exact value `m` is encoded as the narrowest string type whose
length can count to `m`, and as the widest one if no length can. So the width grows with `m`. All
integers from `2 ^ 53` on, which are the first to be rounded, give the type of any binary number
from there on, and likewise below zero, so that rounding never shows.
-/
theorem Field.encodedType?_of_max {field : Field} {max : Literal} {m : NumberValue}
    (htype : field.type = "string") (hmax : field.max = some max) (hvalue : max.value? = some m) :
    ∃ (type : Primitive) (bits : Nat), field.encodedType? = some type ∧
      type.isSizedString = true ∧ type.width? = some bits ∧
      (m ≤ ((2 ^ bits - 1 : ℚ) : NumberValue) ∨
        type = .string64 ∧ ((2 ^ 64 - 1 : ℚ) : NumberValue) < m) ∧
      (∀ (other : Primitive) (others : Nat), other.isSizedString = true →
        other.width? = some others → m ≤ ((2 ^ others - 1 : ℚ) : NumberValue) → bits ≤ others) ∧
      (∀ (other : Field) (greater : Literal) (k : NumberValue), other.type = "string" →
        other.max = some greater → greater.value? = some k → m ≤ k →
        ∃ wider more, other.encodedType? = some wider ∧ wider.width? = some more ∧
          bits ≤ more) ∧
      ∀ (n : Int64) (x : Binary64) (k : NumberValue), max = .integer n → x.value? = some k →
        (2 ^ 53 ≤ n.toInt ∧ ((2 ^ 53 : ℚ) : NumberValue) ≤ k ∨
          n.toInt ≤ -2 ^ 53 ∧ k ≤ ((-2 ^ 53 : ℚ) : NumberValue)) →
        Field.encodedType? { field with max := some (.float x) } = some type := by
  obtain ⟨type, hencoded, hsized, hwidth⟩ := width?_of_max htype hmax hvalue
  have hgreatest (bits : Nat) : greatestLength bits = ((2 ^ bits - 1 : ℚ) : NumberValue) := by
    rw [greatestLength, Nat.cast_sub Nat.one_le_two_pow, Nat.cast_pow, Nat.cast_ofNat,
      Nat.cast_one]
  have hsame {other : Primitive} (hother : other.isSizedString = true)
      (heq : other.width? = type.width?) : other = type := by
    revert hother heq hsized
    cases other <;> cases type <;> decide
  simp only [← hgreatest]
  refine ⟨type, lengthBits m, hencoded, hsized, hwidth, ?_, ?_, ?_, ?_⟩
  · rcases NumberValue.le_greatestLength_lengthBits m with hle | ⟨hbits, hlt⟩
    · exact .inl hle
    · exact .inr ⟨(hsame rfl (by rw [hwidth, hbits]; rfl)).symm, hlt⟩
  · intro other others hother hothers hle
    apply NumberValue.lengthBits_le _ hle
    cases other <;> cases hother <;> cases hothers <;> decide
  · intro other greater k hother hgreater hk hle
    obtain ⟨wider, hwider, -, hmore⟩ := width?_of_max hother hgreater hk
    exact ⟨wider, _, hwider, hmore, NumberValue.lengthBits_mono hle⟩
  · intro n x k hinteger hk hlarge
    let rounded : Field := { field with max := some (.float x) }
    have hroundedType : rounded.type = "string" := htype
    obtain ⟨other, hother, hotherSized, hotherWidth⟩ := width?_of_max hroundedType rfl hk
    have hbits : lengthBits k = lengthBits m := by
      rw [hinteger] at hvalue
      obtain rfl := Option.some.inj hvalue
      rcases hlarge with ⟨hn, hle⟩ | ⟨hn, hle⟩
      · have hm : ((2 ^ 53 : ℚ) : NumberValue) ≤ ((n.toInt : ℚ) : NumberValue) := by
          rw [WithBotTop.coe_le_coe]
          exact_mod_cast hn
        rw [NumberValue.lengthBits_of_large hle, NumberValue.lengthBits_of_large hm]
      · have hzero : ((-2 ^ 53 : ℚ) : NumberValue) ≤ ((0 : ℚ) : NumberValue) := by
          rw [WithBotTop.coe_le_coe]
          norm_num
        have hm : ((n.toInt : ℚ) : NumberValue) ≤ ((0 : ℚ) : NumberValue) := by
          rw [WithBotTop.coe_le_coe, Int.cast_nonpos]
          omega
        rw [NumberValue.lengthBits_of_nonpos (hle.trans hzero),
          NumberValue.lengthBits_of_nonpos hm]
    exact hother.trans (congrArg some (hsame hotherSized (by rw [hotherWidth, hwidth, hbits])))

/-- A fraction above the last length of 16 bits takes 32 bits. -/
theorem Field.encodedType?_of_max_fraction :
    let field : Field :=
      { name := "x", type := "string", max := some (.float (.ofRatio false 131071 2)) }
    field.type = "string" ∧ Literal.ofNumber? "65535.5" = field.max ∧
      (Literal.float (.ofRatio false 131071 2)).value? = some ((131071 / 2 : ℚ) : NumberValue) ∧
      ∃ (type : Primitive) (bits : Nat), field.encodedType? = some type ∧
        type.isSizedString = true ∧ type.width? = some bits ∧ bits = 32 := by
  intro field
  have hunits : Binary64.units (Binary64.nearestRank 131071 2) * 2 = 131071 * unitsPerOne := by
    decide +kernel
  have hfinite : Binary64.nearestRank 131071 2 < magnitudeCount := by
    decide +kernel
  have hvalue : (Literal.float (.ofRatio false 131071 2)).value? =
      some ((131071 / 2 : ℚ) : NumberValue) := by
    have hpos := Binary64.cast_unitsPerOne_pos
    rw [Literal.value?, Binary64.ofRatio, Binary64.value?_ofRank hfinite,
      if_neg Bool.false_ne_true, Binary64.magnitude, Option.some.injEq,
      WithBotTop.coe_injective.eq_iff, div_eq_div_iff hpos.ne' (by norm_num)]
    exact_mod_cast hunits
  have hmax : field.max = some (.float (.ofRatio false 131071 2)) := rfl
  obtain ⟨type, bits, hencoded, hsized, hwidth, -⟩ := encodedType?_of_max rfl hmax hvalue
  have htype : field.encodedType? = some .string32 := by
    decide +kernel
  obtain rfl := Option.some.inj (hencoded.symm.trans htype)
  exact ⟨rfl, by decide +kernel, hvalue, .string32, bits, hencoded, hsized, hwidth,
    (Option.some.inj hwidth).symm⟩

/-! ## Lengths of byte arrays -/

/-- A literal that counts as an unsigned integer of 64 bits: that integer, or `2 ^ 64` cut off. -/
def Literal.CountsAs (literal : Literal) (n : UInt64) : Prop :=
  literal.HasValue n.toNat ∨ literal.HasValue (2 ^ 64) ∧ n.toNat = 2 ^ 64 - 1

/-- A literal counts as some integer if its value is a natural number up to `2 ^ 64`. -/
theorem Literal.exists_countsAs_iff {literal : Literal} :
    (∃ n, literal.CountsAs n) ↔ ∃ k ≤ 2 ^ 64, literal.HasValue k := by
  constructor
  · rintro ⟨n, hvalue | ⟨hvalue, -⟩⟩
    · exact ⟨_, n.toNat_lt.le, hvalue⟩
    · exact ⟨_, Nat.le_refl _, hvalue⟩
  · rintro ⟨k, hle, hvalue⟩
    rcases Nat.lt_or_eq_of_le hle with hlt | rfl
    · refine ⟨.ofNat k, .inl ?_⟩
      rwa [UInt64.toNat_ofNat_of_lt' hlt]
    · exact ⟨.ofNat (2 ^ 64 - 1), .inr ⟨hvalue, rfl⟩⟩

theorem Literal.bind_toUnsigned64?_eq_some_iff {literal : Option Literal} {n : UInt64} :
    literal.bind toUnsigned64? = some n ↔ ∃ value, literal = some value ∧ value.CountsAs n := by
  simp only [Option.bind_eq_some_iff, toUnsigned64?_eq_some_iff, CountsAs]

theorem Literal.bind_toUnsigned64?_eq_none_iff {literal : Option Literal} :
    literal.bind toUnsigned64? = none ↔
      ∀ value, literal = some value → ∀ k ≤ 2 ^ 64, ¬value.HasValue k := by
  rw [Option.eq_none_iff_forall_ne_some]
  constructor
  · intro h value hvalue k hle hk
    obtain ⟨n, hn⟩ := exists_countsAs_iff.2 ⟨k, hle, hk⟩
    exact h n (bind_toUnsigned64?_eq_some_iff.2 ⟨value, hvalue, hn⟩)
  · intro h n hn
    obtain ⟨value, hvalue, hcounts⟩ := bind_toUnsigned64?_eq_some_iff.1 hn
    obtain ⟨k, hle, hk⟩ := exists_countsAs_iff.1 ⟨n, hcounts⟩
    exact h value hvalue k hle hk

/--
A literal is worth an unsigned integer of 64 bits exactly if that is its exact value, or if its
value is `2 ^ 64` and the integer is the greatest one. So the length of a byte array is the value of
its `length`, or else of its `fromEnd`, but for that one value; and it is missing exactly if neither
is a natural number up to `2 ^ 64`.
-/
theorem Field.fixedLength_values (literal : Literal) (field : Field) (n : UInt64) :
    (literal.toUnsigned64? = some n ↔
      literal.HasValue n.toNat ∨ literal.HasValue (2 ^ 64) ∧ n.toNat = 2 ^ 64 - 1) ∧
    (field.fixedLength = .ok (.exact n) ↔
      ∃ length, field.length = some length ∧ length.CountsAs n) ∧
    (field.fixedLength = .ok (.fromEnd n) ↔
      (∀ length, field.length = some length → ∀ k ≤ 2 ^ 64, ¬length.HasValue k) ∧
        ∃ fromEnd, field.fromEnd = some fromEnd ∧ fromEnd.CountsAs n) ∧
    (field.fixedLength = .error (.missingFixedLength field.name) ↔
      (∀ length, field.length = some length → ∀ k ≤ 2 ^ 64, ¬length.HasValue k) ∧
        ∀ fromEnd, field.fromEnd = some fromEnd → ∀ k ≤ 2 ^ 64, ¬fromEnd.HasValue k) := by
  refine ⟨Literal.toUnsigned64?_eq_some_iff, ?_⟩
  simp only [← Literal.bind_toUnsigned64?_eq_some_iff, ← Literal.bind_toUnsigned64?_eq_none_iff,
    fixedLength]
  cases field.length.bind Literal.toUnsigned64? with
  | some length => simp
  | none => cases field.fromEnd.bind Literal.toUnsigned64? <;> simp

/-- The number behind the greatest one of 64 bits is taken for the greatest one. -/
theorem Field.fixedLength_beyond_range :
    ∃ literal : Literal, Literal.ofNumber? "18446744073709551616" = some literal ∧
      literal.HasValue (2 ^ 64) ∧ literal.toUnsigned64? = some 18446744073709551615 ∧
      ¬literal.HasValue (18446744073709551615 : UInt64).toNat ∧
      Field.fixedLength { name := "x", type := "byteN", length := some literal } =
        .ok (.exact 18446744073709551615) := by
  have hvalue : (Literal.float (.ofRatio false (2 ^ 64) 1)).HasValue (2 ^ 64) := by
    rw [Literal.hasValue_float_iff]
    decide +kernel
  refine ⟨.float (.ofRatio false (2 ^ 64) 1), by decide +kernel, hvalue, by decide +kernel,
    fun hother ↦ ?_, by decide +kernel⟩
  have heq := hvalue.unique hother
  revert heq
  decide

end SchemaLang
