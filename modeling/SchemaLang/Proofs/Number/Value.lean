import Mathlib.Algebra.Order.Field.Basic
import Mathlib.Algebra.Order.Field.Rat
import Mathlib.Data.Int.CharZero
import Mathlib.Data.Nat.Cast.Order.Ring
import Mathlib.Order.WithBotTop
import SchemaLang.Proofs.Number.Whole

/-!
# Exact values of numbers

The values that numbers are compared by are exact: a rational number, or one of the two infinities.
An integer has its own value, also where the binary number nearest to it has another one. What a
literal is worth as an unsigned integer of 64 bits is its exact value, but for `2 ^ 64`, for which
it is one less (`Literal.toUnsigned64?_eq_some_iff`). Between an integer and the binary number
nearest to it no natural number below `2 ^ 53` lies (`Literal.exists_toBinary?`).
-/

namespace SchemaLang

/-- A rational number, or one of the two infinities. -/
abbrev NumberValue := WithBotTop ℚ

/-! ## Binary numbers -/

namespace Binary64

/-- The magnitude of a rank. -/
def magnitude (rank : Nat) : ℚ := units rank / unitsPerOne

/-- The exact value of a number that is defined. -/
def value? : Binary64 → Option NumberValue
  | .finite negative rank =>
    some ((if negative then -magnitude rank else magnitude rank : ℚ) : NumberValue)
  | .infinite negative => some (if negative then ⊥ else ⊤)
  | .nan => none

theorem cast_unitsPerOne_pos : (0 : ℚ) < unitsPerOne := Nat.cast_pos.2 unitsPerOne_pos

theorem magnitude_nonneg (rank : Nat) : 0 ≤ magnitude rank :=
  div_nonneg (Nat.cast_nonneg _) (Nat.cast_nonneg _)

theorem magnitude_le_iff {rank n : Nat} : magnitude rank ≤ n ↔ units rank ≤ n * unitsPerOne := by
  rw [magnitude, div_le_iff₀ cast_unitsPerOne_pos, ← Nat.cast_mul, Nat.cast_le]

theorem magnitude_eq_iff {rank n : Nat} : magnitude rank = n ↔ units rank = n * unitsPerOne := by
  rw [magnitude, div_eq_iff cast_unitsPerOne_pos.ne', ← Nat.cast_mul, Nat.cast_inj]

/-- Only the least rank has the magnitude zero. -/
theorem units_eq_zero_iff {rank : Nat} : units rank = 0 ↔ rank = 0 := by
  constructor
  · intro h
    rw [← nearestRank_units rank, h, nearestRank_zero]
  · rintro rfl
    rfl

theorem value?_ofRank {rank : Nat} (h : rank < magnitudeCount) (negative : Bool) :
    (ofRank negative rank).value? =
      some ((if negative then -magnitude rank else magnitude rank : ℚ) : NumberValue) := by
  rw [ofRank, dif_pos h]
  rfl

/-- A number is equal to a natural number if that is its value. -/
theorem toNat?_eq_some_iff {x : Binary64} {n : Nat} :
    x.toNat? = some n ↔ x.value? = some ((n : ℚ) : NumberValue) := by
  cases x with
  | nan => simp [toNat?, value?]
  | infinite negative =>
    have htop := (WithBotTop.coe_ne_top (n : ℚ)).symm
    have hbot := (WithBotTop.coe_ne_bot (n : ℚ)).symm
    cases negative <;> simp [toNat?, value?, htop, hbot]
  | finite negative rank =>
    simp only [toNat?, value?, Option.some.injEq, WithBotTop.coe_injective.eq_iff]
    have hwhole : magnitude rank = n ↔
        (if units rank % unitsPerOne = 0 then some (units rank / unitsPerOne) else none) =
          some n := by
      rw [magnitude_eq_iff]
      constructor
      · intro h
        rw [h, Nat.mul_mod_left, if_pos rfl, Nat.mul_div_cancel _ unitsPerOne_pos]
      · intro h
        split_ifs at h with hrest
        rw [← Option.some.inj h, Nat.div_mul_cancel (Nat.dvd_of_mod_eq_zero hrest)]
    cases negative with
    | false => rw [if_neg (by simp), if_neg Bool.false_ne_true, hwhole]
    | true =>
      rw [if_pos rfl]
      by_cases hzero : rank.val = 0
      · have hmagnitude : magnitude rank = 0 := by
          rw [magnitude, units_eq_zero_iff.2 hzero, Nat.cast_zero, zero_div]
        rw [if_neg (by simp [hzero]), ← hwhole, hmagnitude, neg_zero]
      · have hpos : 0 < magnitude rank :=
          div_pos (Nat.cast_pos.2 (Nat.pos_of_ne_zero (mt units_eq_zero_iff.1 hzero)))
            cast_unitsPerOne_pos
        have hne : -magnitude rank ≠ n :=
          ((neg_lt_zero.2 hpos).trans_le (Nat.cast_nonneg n)).ne
        rw [if_pos ⟨rfl, hzero⟩]
        exact iff_of_false (by simp) hne

/-- What a whole number is rounded to is on the same side of each number below `2 ^ 53`. -/
theorem nearestWhole_le_iff {n t : Nat} (ht : t < 2 ^ 53) : nearestWhole n ≤ t ↔ n ≤ t := by
  rcases Nat.lt_or_ge n (2 ^ 53) with hlt | hle
  · rw [nearestWhole_of_lt hlt]
  · have hrounded := two_pow_le_nearestWhole (k := 53) (by decide) hle
    exact iff_of_false (by omega) (by omega)

/-- The number nearest to an integer of 64 bits has a value on the same side as the integer. -/
theorem exists_value?_ofInt {n : Int} (h : n.natAbs < 2 ^ 64) :
    ∃ value : ℚ, (ofInt n).value? = some ((value : ℚ) : NumberValue) ∧
      ∀ t : Nat, t < 2 ^ 53 → (value ≤ t ↔ (n : ℚ) ≤ t) := by
  have hvalue := value?_ofRank (nearestRank_lt_magnitudeCount h) (decide (n < 0))
  refine ⟨_, hvalue, fun t ht ↦ ?_⟩
  by_cases hneg : n < 0
  · rw [decide_eq_true hneg, if_pos rfl]
    have hleft : -magnitude (nearestRank n.natAbs 1) ≤ t :=
      (neg_nonpos.2 (magnitude_nonneg _)).trans (Nat.cast_nonneg t)
    have hright : (n : ℚ) ≤ t := (Int.cast_nonpos.2 hneg.le).trans (Nat.cast_nonneg t)
    exact iff_of_true hleft hright
  · obtain ⟨k, rfl⟩ := Int.eq_ofNat_of_zero_le (Int.not_lt.1 hneg)
    rw [decide_eq_false hneg, if_neg Bool.false_ne_true, Int.natAbs_natCast, magnitude_le_iff,
      units_nearestRank_one, Nat.mul_le_mul_right_iff unitsPerOne_pos, nearestWhole_le_iff ht,
      Int.cast_natCast, Nat.cast_le]

end Binary64

/-! ## Literals -/

namespace Literal

/-- The exact value of a literal that is a number. -/
def value? : Literal → Option NumberValue
  | integer value => some ((value.toInt : ℚ) : NumberValue)
  | float value => value.value?
  | _ => none

/-- The exact value of a literal is a natural number. -/
def HasValue (literal : Literal) (n : Nat) : Prop :=
  literal.value? = some ((n : ℚ) : NumberValue)

theorem HasValue.unique {literal : Literal} {n k : Nat} (hn : literal.HasValue n)
    (hk : literal.HasValue k) : n = k := by
  have hvalues : ((n : ℚ) : NumberValue) = (k : ℚ) := Option.some.inj (hn.symm.trans hk)
  exact Nat.cast_injective (WithBotTop.coe_injective hvalues)

theorem hasValue_integer_iff {value : Int64} {n : Nat} :
    (integer value).HasValue n ↔ value.toInt = n := by
  rw [HasValue, value?, Option.some.injEq, WithBotTop.coe_injective.eq_iff, ← Int.cast_natCast,
    Int.cast_inj]

theorem hasValue_float_iff {x : Binary64} {n : Nat} : (float x).HasValue n ↔ x.toNat? = some n :=
  Binary64.toNat?_eq_some_iff.symm

/--
What a literal is worth as an unsigned integer of 64 bits is its exact value. The one exception is
the value `2 ^ 64`, which is out of range and is taken for the greatest number in range.
-/
theorem toUnsigned64?_eq_some_iff {literal : Literal} {n : UInt64} :
    literal.toUnsigned64? = some n ↔
      literal.HasValue n.toNat ∨ literal.HasValue (2 ^ 64) ∧ n.toNat = 2 ^ 64 - 1 := by
  have hlt := n.toNat_lt
  cases literal with
  | bool | text => simp [toUnsigned64?, HasValue, value?]
  | integer value =>
    have hhigh := value.toInt_lt
    rw [hasValue_integer_iff, hasValue_integer_iff, toUnsigned64?]
    split_ifs with hnonneg
    · have hrange : value.toInt.toNat < 2 ^ 64 := by omega
      rw [Option.some.injEq, ← UInt64.toNat_inj, UInt64.toNat_ofNat_of_lt' hrange]
      omega
    · exact iff_of_false (by simp) (by omega)
  | float x =>
    rw [hasValue_float_iff, hasValue_float_iff, toUnsigned64?]
    cases hnat : x.toNat? with
    | none => simp
    | some k =>
      simp only [Option.some.injEq]
      split_ifs with hle
      · have hrange : min k (2 ^ 64 - 1) < 2 ^ 64 := by omega
        rw [Option.some.injEq, ← UInt64.toNat_inj, UInt64.toNat_ofNat_of_lt' hrange]
        omega
      · exact iff_of_false (by simp) (by omega)

/-- A number has a nearest binary number, and both are on the same side of what is exact. -/
theorem exists_toBinary? {literal : Literal} {m : NumberValue} (h : literal.value? = some m) :
    ∃ (x : Binary64) (value : NumberValue), literal.toBinary? = some x ∧ x.value? = some value ∧
      ∀ t : Nat, t < 2 ^ 53 → (value ≤ ((t : ℚ) : NumberValue) ↔ m ≤ ((t : ℚ) : NumberValue)) := by
  cases literal with
  | bool | text => cases h
  | float x => exact ⟨x, m, rfl, h, fun _ _ ↦ Iff.rfl⟩
  | integer n =>
    obtain rfl := Option.some.inj h
    have hlow := n.le_toInt
    have hhigh := n.toInt_lt
    obtain ⟨value, hvalue, hside⟩ := Binary64.exists_value?_ofInt (n := n.toInt) (by omega)
    refine ⟨_, _, rfl, hvalue, fun t ht ↦ ?_⟩
    rw [WithBotTop.coe_le_coe, WithBotTop.coe_le_coe]
    exact hside t ht

end Literal

end SchemaLang
