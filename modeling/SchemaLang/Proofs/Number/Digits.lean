import Mathlib.Algebra.Group.Int.Defs
import Mathlib.Algebra.Group.Nat.Defs
import Mathlib.Data.List.Basic
import SchemaLang.Number.Scaled
import SchemaLang.Proofs.Text.Run

/-!
# Digits of natural numbers

The digits of a number denote that number again, and the first of them is a zero only for the number
zero. A number of digits below `2 ^ 64` is read as a whole (`bounded_of_lt`).
-/

namespace SchemaLang.Decimal

theorem isDigit_eq (c : Char) : isDigit c = c.isDigit := rfl

theorem ofDigits_eq (digits : List Char) : ofDigits digits = Nat.ofDigitChars 10 digits 0 := by
  have hstep : appendDigit = fun n digit ↦ 10 * n + (digit.toNat - '0'.toNat) := by
    funext n digit
    rw [appendDigit, Nat.mul_comm]
  rw [ofDigits, hstep, Nat.ofDigitChars_eq_foldl]

theorem ofDigits_toDigits (n : Nat) : ofDigits (toDigits n) = n := by
  rw [ofDigits_eq, toDigits, Nat.ofDigitChars_ten_toDigits]

theorem isDigit_of_mem_toDigits {n : Nat} {c : Char} (h : c ∈ toDigits n) : isDigit c = true := by
  rw [isDigit_eq]
  exact Nat.isDigit_of_mem_toDigits (by decide) (by decide) h

theorem toDigits_ne_nil (n : Nat) : toDigits n ≠ [] := Nat.toDigits_ne_nil

theorem digitChar_ne_zero : ∀ n < 10, n ≠ 0 → n.digitChar ≠ '0' := by
  decide

theorem head?_toDigits_ne_zero {n : Nat} (h : n ≠ 0) : (toDigits n).head? ≠ some '0' := by
  induction n using Nat.strongRecOn with
  | ind n ih =>
    unfold toDigits
    rcases Nat.lt_or_ge n 10 with hlt | hle
    · rw [Nat.toDigits_of_lt_base hlt, List.head?_cons, ne_eq, Option.some.injEq]
      exact digitChar_ne_zero n hlt h
    · have hdigits : Nat.toDigits 10 n = toDigits (n / 10) ++ [(n % 10).digitChar] :=
        Nat.toDigits_of_base_le (by decide) hle
      rw [hdigits, List.head?_append_of_ne_nil _ (toDigits_ne_nil _)]
      exact ih (n / 10) (by omega) (by omega)

theorem toDigits_zero : toDigits 0 = ['0'] := Nat.toDigits_zero 10

/-- The digits of a number that start with a zero are that zero. -/
theorem toDigits_of_head? {n : Nat} (h : (toDigits n).head? = some '0') : toDigits n = ['0'] := by
  by_cases hn : n = 0
  · rw [hn, toDigits_zero]
  · exact absurd h (head?_toDigits_ne_zero hn)

/-! ## Digits behind digits -/

theorem ofDigits_append (digits more : List Char) :
    ofDigits (digits ++ more) = more.foldl appendDigit (ofDigits digits) := List.foldl_append ..

theorem foldl_appendDigit_zeros (n zeros : Nat) :
    (List.replicate zeros '0').foldl appendDigit n = n * 10 ^ zeros := by
  induction zeros generalizing n with
  | zero => rw [List.replicate_zero, List.foldl_nil, Nat.pow_zero, Nat.mul_one]
  | succ zeros ih =>
    have hzero : appendDigit n '0' = n * 10 := rfl
    rw [List.replicate_succ, List.foldl_cons, hzero, ih, Nat.pow_succ', Nat.mul_assoc]

theorem ofDigits_append_zeros (digits : List Char) (zeros : Nat) :
    ofDigits (digits ++ List.replicate zeros '0') = ofDigits digits * 10 ^ zeros := by
  rw [ofDigits_append, foldl_appendDigit_zeros]

theorem ofDigits_zeros_append (zeros : Nat) (digits : List Char) :
    ofDigits (List.replicate zeros '0' ++ digits) = ofDigits digits := by
  have hzeros : ofDigits (List.replicate zeros '0') = 0 := by
    rw [ofDigits, foldl_appendDigit_zeros, Nat.zero_mul]
  rw [ofDigits_append, hzeros]
  rfl

theorem le_foldl_appendDigit (n : Nat) (digits : List Char) : n ≤ digits.foldl appendDigit n := by
  induction digits generalizing n with
  | nil => exact Nat.le_refl n
  | cons digit digits ih =>
    calc
      n ≤ n * 10 := Nat.le_mul_of_pos_right n (by decide)
      _ ≤ appendDigit n digit := Nat.le_add_right _ _
      _ ≤ (digit :: digits).foldl appendDigit n := ih (appendDigit n digit)

theorem appendBounded_of_lt {n : Nat} {digits : List Char}
    (h : digits.foldl appendDigit n < 2 ^ 64) :
    appendBounded n digits = (digits.foldl appendDigit n, []) := by
  induction digits generalizing n with
  | nil => rfl
  | cons digit digits ih =>
    have hlt : appendDigit n digit < 2 ^ 64 := Nat.lt_of_le_of_lt (le_foldl_appendDigit _ digits) h
    rw [appendBounded, if_pos hlt]
    exact ih h

/-- Digits that make a number below `2 ^ 64` are all read. -/
theorem bounded_of_lt (negative : Bool) {whole fraction : List Char} (exponent : Int)
    (h : ofDigits (whole ++ fraction) < 2 ^ 64) :
    bounded negative whole fraction exponent =
      ⟨negative, ofDigits (whole ++ fraction), exponent - fraction.length⟩ := by
  rw [ofDigits_append] at h ⊢
  have hwhole : ofDigits whole < 2 ^ 64 :=
    Nat.lt_of_le_of_lt (le_foldl_appendDigit _ fraction) h
  have hbefore : appendBounded 0 whole = (ofDigits whole, []) := appendBounded_of_lt hwhole
  simp only [bounded, hbefore, appendBounded_of_lt h, List.length_nil, Int.natCast_zero,
    Int.add_zero]

end SchemaLang.Decimal
