import Mathlib.Algebra.Group.Int.Defs
import Mathlib.Algebra.Group.Nat.Defs
import SchemaLang.Number.Scaled
import SchemaLang.Number.Shortest

/-!
# Where rounding is exact

Rounding takes a quotient to the nearest multiple of a step (`units_nearestRank_mul`). It leaves a
magnitude as it is (`nearestRank_units`), and a whole number below `2 ^ 53` times a power of two has
a magnitude of its own (`units_nearestRank`). So the digits and the power of ten of a decimal with
few digits and a small exponent are exact, and scaling rounds once: it agrees with the rounding of
the decimal (`toScaledBinary_eq_toBinary`).
-/

namespace SchemaLang.Binary64

-- Powers are those of the definitions, and not those of a monoid.
attribute [local instance (high)] instPowNat

theorem unitsPerOne_pos : 0 < unitsPerOne := by
  rw [unitsPerOne]
  apply Nat.pow_pos
  decide

/-! ## Rounding -/

theorem divideHalfEven_one (num : Nat) : divideHalfEven num 1 = num := by
  simp [divideHalfEven, Nat.mod_one]

theorem divideHalfEven_mul (num den : Nat) {c : Nat} (h : 0 < c) :
    divideHalfEven (num * c) (den * c) = divideHalfEven num den := by
  have hrest : 2 * (num % den * c) = 2 * (num % den) * c := (Nat.mul_assoc ..).symm
  simp only [divideHalfEven, Nat.mul_div_mul_right _ _ h, Nat.mul_mod_mul_right, hrest,
    Nat.mul_lt_mul_right h]

/-- A common factor of numerator and denominator does not count. -/
theorem nearestRank_mul (num den : Nat) {c : Nat} (h : 0 < c) :
    nearestRank (num * c) (den * c) = nearestRank num den := by
  have hunits : num * c * unitsPerOne = num * unitsPerOne * c := Nat.mul_right_comm ..
  have hshift (shift : Nat) : den * c * 2 ^ shift = den * 2 ^ shift * c := Nat.mul_right_comm ..
  simp only [nearestRank, hunits, hshift, Nat.mul_div_mul_right _ _ h, divideHalfEven_mul _ _ h]

theorem nearestRank_zero (den : Nat) : nearestRank 0 den = 0 := by
  simp [nearestRank, divideHalfEven]

/-! ## Magnitudes -/

theorem log2_mul_two_pow {n : Nat} (h : n ≠ 0) (k : Nat) :
    Nat.log2 (n * 2 ^ k) = Nat.log2 n + k := by
  have hne : n * 2 ^ k ≠ 0 := Nat.mul_ne_zero h (Nat.ne_of_gt (Nat.two_pow_pos k))
  rw [Nat.log2_eq_iff hne, Nat.add_right_comm, Nat.pow_add, Nat.pow_add]
  constructor
  · exact Nat.mul_le_mul_right _ (Nat.log2_self_le h)
  · exact Nat.mul_lt_mul_of_pos_right Nat.lt_log2_self (Nat.two_pow_pos k)

theorem significand_of_lt {rank : Nat} (h : rank < 2 ^ 52) : significand rank = rank := if_pos h

theorem significand_of_le {rank : Nat} (h : 2 ^ 52 ≤ rank) :
    significand rank = 2 ^ 52 + rank % 2 ^ 52 := if_neg (Nat.not_lt.2 h)

/-- The leading bit of a magnitude says how often the significand is doubled. -/
theorem log2_units (rank : Nat) : Nat.log2 (units rank) - 52 = scale rank := by
  rcases Nat.lt_or_ge rank (2 ^ 52) with hlow | hhigh
  · have hscale : scale rank = 0 := by
      unfold scale
      omega
    rw [units, hscale, significand_of_lt hlow, Nat.pow_zero, Nat.mul_one]
    by_cases hzero : rank = 0
    · rw [hzero, Nat.log2_zero, Nat.zero_sub]
    · have hlog := (Nat.log2_lt hzero).2 hlow
      omega
  · have hlog : Nat.log2 (2 ^ 52 + rank % 2 ^ 52) = 52 := by
      rw [Nat.log2_eq_iff (by omega)]
      omega
    rw [units, significand_of_le hhigh, log2_mul_two_pow (by omega), hlog]
    omega

/-- Rounding leaves a magnitude as it is. -/
theorem nearestRank_units (rank : Nat) : nearestRank (units rank) unitsPerOne = rank := by
  have hrank : scale rank * 2 ^ 52 + significand rank = rank := by
    unfold scale
    rcases Nat.lt_or_ge rank (2 ^ 52) with hlow | hhigh
    · rw [significand_of_lt hlow]
      omega
    · rw [significand_of_le hhigh]
      omega
  have hwhole : divideHalfEven (units rank * unitsPerOne) (unitsPerOne * 2 ^ scale rank) =
      significand rank := by
    have hcommon := divideHalfEven_mul (significand rank) 1
      (Nat.mul_pos unitsPerOne_pos (Nat.two_pow_pos (scale rank)))
    rw [Nat.one_mul, divideHalfEven_one, Nat.mul_comm unitsPerOne, ← Nat.mul_assoc] at hcommon
    rwa [units, Nat.mul_comm unitsPerOne]
  rw [nearestRank, Nat.mul_div_cancel _ unitsPerOne_pos, log2_units, hwhole, hrank]

/-! ## Whole numbers -/

/-- A significand of 53 bits that is doubled a number of times. -/
theorem units_of_significand {s : Nat} (hlow : 2 ^ 52 ≤ s) (hhigh : s < 2 ^ 53) (doubled : Nat) :
    units (doubled * 2 ^ 52 + s) = s * 2 ^ doubled := by
  have hscale : scale (doubled * 2 ^ 52 + s) = doubled := by
    unfold scale
    omega
  have hsignificand : significand (doubled * 2 ^ 52 + s) = s := by
    unfold significand
    rw [if_neg (by omega)]
    omega
  rw [units, hscale, hsignificand]

theorem divideHalfEven_le (num den : Nat) : divideHalfEven num den ≤ num / den + 1 := by
  unfold divideHalfEven
  dsimp only
  split
  · exact Nat.le_succ _
  split
  · exact Nat.le_refl _
  · omega

theorem div_le_divideHalfEven (num den : Nat) : num / den ≤ divideHalfEven num den := by
  unfold divideHalfEven
  dsimp only
  split
  · exact Nat.le_refl _
  split
  · exact Nat.le_succ _
  · exact Nat.le_add_right _ _

/-- The bits that are kept of a number with more than 52 bits. -/
theorem two_pow_le_div {n : Nat} (h : 2 ^ 52 ≤ n) : 2 ^ 52 ≤ n / 2 ^ (n.log2 - 52) := by
  have hzero : n ≠ 0 := by omega
  have hlog : 52 ≤ n.log2 := (Nat.le_log2 hzero).2 h
  rw [Nat.le_div_iff_mul_le (Nat.two_pow_pos _), ← Nat.pow_add, Nat.add_sub_cancel' hlog]
  exact Nat.log2_self_le hzero

theorem div_lt_two_pow {n : Nat} (h : 2 ^ 52 ≤ n) : n / 2 ^ (n.log2 - 52) < 2 ^ 53 := by
  have hlog : 52 ≤ n.log2 := (Nat.le_log2 (by omega)).2 h
  have hsum : 53 + (n.log2 - 52) = n.log2 + 1 := by omega
  rw [Nat.div_lt_iff_lt_mul (Nat.two_pow_pos _), ← Nat.pow_add, hsum]
  exact Nat.lt_log2_self

/-! ## Rounded quotients -/

/-- A rounded significand, which is carried to the next binade if it has 54 bits. -/
theorem units_of_rounded {s doubled : Nat} (hlow : 2 ^ 52 ≤ s ∨ doubled = 0) (hhigh : s ≤ 2 ^ 53) :
    units (doubled * 2 ^ 52 + s) = s * 2 ^ doubled := by
  rcases Nat.lt_or_ge s (2 ^ 52) with hsmall | hlarge
  · obtain rfl : doubled = 0 := hlow.resolve_left (Nat.not_le.2 hsmall)
    have hscale : scale s = 0 := by
      unfold scale
      omega
    rw [Nat.zero_mul, Nat.zero_add, units, significand_of_lt hsmall, hscale]
  rcases Nat.lt_or_eq_of_le hhigh with hlt | rfl
  · exact units_of_significand hlarge hlt doubled
  · have hnext : doubled * 2 ^ 52 + 2 ^ 53 = (doubled + 1) * 2 ^ 52 + 2 ^ 52 := by omega
    rw [hnext, units_of_significand (Nat.le_refl _) (by decide), Nat.pow_succ' (m := 2)]
    omega

/-- How often the magnitudes around a quotient are doubled. -/
def doublings (num den : Nat) : Nat := Nat.log2 (num * unitsPerOne / den) - 52

/-- The quotient in steps between the magnitudes around it. -/
def stepQuotient (num den : Nat) : Nat :=
  divideHalfEven (num * unitsPerOne) (den * 2 ^ doublings num den)

theorem nearestRank_eq (num den : Nat) :
    nearestRank num den = doublings num den * 2 ^ 52 + stepQuotient num den := rfl

/-- Where the magnitudes are doubled, there are enough of them below the quotient. -/
theorem two_pow_le_of_doublings {num den : Nat} (h : doublings num den ≠ 0) :
    2 ^ (52 + doublings num den) ≤ num * unitsPerOne / den := by
  unfold doublings at h ⊢
  have hzero : num * unitsPerOne / den ≠ 0 := by
    intro hzero
    rw [hzero, Nat.log2_zero] at h
    exact h rfl
  rw [Nat.add_sub_cancel' (by omega)]
  exact Nat.log2_self_le hzero

theorem div_step (num den : Nat) : num * unitsPerOne / (den * 2 ^ doublings num den) =
    num * unitsPerOne / den / 2 ^ doublings num den :=
  (Nat.div_div_eq_div_mul ..).symm

theorem le_stepQuotient {num den : Nat} (h : doublings num den ≠ 0) :
    2 ^ 52 ≤ stepQuotient num den := by
  have hmany : 2 ^ 52 ≤ num * unitsPerOne / den :=
    Nat.le_trans (Nat.pow_le_pow_right (by decide) (Nat.le_add_right _ _))
      (two_pow_le_of_doublings h)
  refine Nat.le_trans ?_ (div_le_divideHalfEven _ _)
  rw [div_step]
  exact two_pow_le_div hmany

theorem stepQuotient_le (num den : Nat) : stepQuotient num den ≤ 2 ^ 53 := by
  refine Nat.le_trans (divideHalfEven_le _ _) ?_
  rw [div_step]
  rcases Nat.lt_or_ge (num * unitsPerOne / den) (2 ^ 52) with hlt | hle
  · have := Nat.div_le_self (num * unitsPerOne / den) (2 ^ doublings num den)
    omega
  · exact div_lt_two_pow hle

/-- The magnitude that a quotient is rounded to is the nearest multiple of the step. -/
theorem units_nearestRank_mul (num den : Nat) :
    units (nearestRank num den) * den = stepQuotient num den * (den * 2 ^ doublings num den) := by
  have hlow : 2 ^ 52 ≤ stepQuotient num den ∨ doublings num den = 0 := by
    by_cases hzero : doublings num den = 0
    · exact .inr hzero
    · exact .inl (le_stepQuotient hzero)
  rw [nearestRank_eq, units_of_rounded hlow (stepQuotient_le num den)]
  ac_rfl

/-! ## Exact quotients -/

/-- A number of 53 bits that is doubled some times is exact. -/
theorem units_nearestRank {n : Nat} (h : n < 2 ^ 53) (k : Nat) :
    units (nearestRank (n * 2 ^ k) 1) = n * 2 ^ k * unitsPerOne := by
  by_cases hzero : n = 0
  · rw [hzero, Nat.zero_mul, nearestRank_zero, Nat.zero_mul]
    rfl
  have hlog : n.log2 < 53 := (Nat.log2_lt hzero).2 h
  have hunits : n * 2 ^ k * unitsPerOne = n * 2 ^ (52 - n.log2) * 2 ^ (n.log2 + k + 1022) := by
    have hsum : k + 1074 = 52 - n.log2 + (n.log2 + k + 1022) := by omega
    rw [unitsPerOne, Nat.mul_assoc, Nat.mul_assoc, ← Nat.pow_add 2 k 1074,
      ← Nat.pow_add 2 (52 - n.log2), hsum]
  have hshift : Nat.log2 (n * 2 ^ k * unitsPerOne / 1) - 52 = n.log2 + k + 1022 := by
    rw [Nat.div_one, hunits, Nat.mul_assoc, ← Nat.pow_add, log2_mul_two_pow hzero]
    omega
  have hlow : 2 ^ 52 ≤ n * 2 ^ (52 - n.log2) := by
    have hsum : n.log2 + (52 - n.log2) = 52 := by omega
    calc
      2 ^ 52 = 2 ^ n.log2 * 2 ^ (52 - n.log2) := by rw [← Nat.pow_add, hsum]
      _ ≤ n * 2 ^ (52 - n.log2) := Nat.mul_le_mul_right _ (Nat.log2_self_le hzero)
  have hhigh : n * 2 ^ (52 - n.log2) < 2 ^ 53 := by
    have hsum : n.log2 + 1 + (52 - n.log2) = 53 := by omega
    calc
      n * 2 ^ (52 - n.log2) < 2 ^ (n.log2 + 1) * 2 ^ (52 - n.log2) :=
        Nat.mul_lt_mul_of_pos_right Nat.lt_log2_self (Nat.two_pow_pos _)
      _ = 2 ^ 53 := by rw [← Nat.pow_add, hsum]
  have hrank : nearestRank (n * 2 ^ k) 1 =
      (n.log2 + k + 1022) * 2 ^ 52 + n * 2 ^ (52 - n.log2) := by
    rw [nearestRank, hshift, hunits, divideHalfEven_mul _ _ (Nat.two_pow_pos _),
      divideHalfEven_one]
  rw [hrank, units_of_significand hlow hhigh, hunits]

/-- Whole numbers of 64 bits have finite magnitudes. -/
theorem nearestRank_lt_magnitudeCount {n : Nat} (h : n < 2 ^ 64) :
    nearestRank n 1 < magnitudeCount := by
  have hdoubled : doublings n 1 ≤ 64 + 1074 - 53 := by
    by_cases hzero : n = 0
    · rw [hzero, doublings, Nat.zero_mul, Nat.zero_div, Nat.log2_zero]
      exact Nat.zero_le _
    · have hlog := (Nat.log2_lt hzero).2 h
      rw [doublings, Nat.div_one, unitsPerOne, log2_mul_two_pow hzero 1074]
      omega
  have hstep := stepQuotient_le n 1
  rw [nearestRank_eq, magnitudeCount]
  omega

/-- An integer of 64 bits with or without a sign is finite. -/
theorem isFinite_ofInt {n : Int} (h : n.natAbs < 2 ^ 64) : (ofInt n).isFinite = true := by
  rw [ofInt, ofRatio, ofRank, dif_pos (nearestRank_lt_magnitudeCount h)]
  rfl

/-- Powers of ten are exact up to `10 ^ 22`. -/
theorem units_powerRank {k : Nat} (h : k ≤ 22) :
    units (Decimal.powerRank k) = 10 ^ k * unitsPerOne := by
  have hfive : 5 ^ k < 2 ^ 53 := by
    calc
      5 ^ k ≤ 5 ^ 22 := Nat.pow_le_pow_right (by decide) h
      _ < 2 ^ 53 := by decide
  have hten : 10 ^ k = 5 ^ k * 2 ^ k := by rw [← Nat.mul_pow]
  rw [Decimal.powerRank, hten]
  exact units_nearestRank hfive k

/-! ## Decimals -/

/-- The rank nearest to a number of digits times a power of ten. -/
def nearestDecimal (digits : Nat) (exponent : Int) : Nat :=
  if 0 ≤ exponent then nearestRank (digits * 10 ^ exponent.toNat) 1
  else nearestRank digits (10 ^ (-exponent).toNat)

theorem readsBack_iff {rank digits : Nat} {exponent : Int} :
    readsBack rank digits exponent = true ↔ nearestDecimal digits exponent = rank := by
  unfold readsBack nearestDecimal
  split <;> exact decide_eq_true_iff

/-- Zeros can be written behind the digits of a decimal. -/
theorem nearestDecimal_zeros (digits : Nat) (exponent : Int) (zeros : Nat) :
    nearestDecimal (digits * 10 ^ zeros) (exponent - zeros) = nearestDecimal digits exponent := by
  have hten (k : Nat) : 0 < 10 ^ k := Nat.pow_pos (by decide)
  unfold nearestDecimal
  by_cases hexponent : 0 ≤ exponent
  · by_cases hfew : 0 ≤ exponent - zeros
    · have hsum : exponent.toNat = zeros + (exponent - zeros).toNat := by omega
      rw [if_pos hfew, if_pos hexponent, hsum, Nat.pow_add, Nat.mul_assoc]
    · have hsum : zeros = exponent.toNat + (-(exponent - zeros)).toNat := by omega
      rw [if_neg hfew, if_pos hexponent,
        ← nearestRank_mul (digits * 10 ^ exponent.toNat) 1 (hten (-(exponent - zeros)).toNat),
        Nat.one_mul, Nat.mul_assoc, ← Nat.pow_add, ← hsum]
  · have hsum : (-(exponent - zeros)).toNat = (-exponent).toNat + zeros := by omega
    rw [if_neg (by omega), if_neg hexponent, hsum, Nat.pow_add, nearestRank_mul _ _ (hten zeros)]

end SchemaLang.Binary64

namespace SchemaLang.Decimal

open Binary64

theorem toBinary_of_exponent {x : Decimal} (hlow : -400 ≤ x.exponent) (hhigh : x.exponent ≤ 400) :
    x.toBinary = .ofRank x.negative (nearestDecimal x.digits x.exponent) := by
  unfold toBinary
  split
  case isTrue hzero =>
    rw [hzero, nearestDecimal, Nat.zero_mul, nearestRank_zero, nearestRank_zero, ite_self]
  case isFalse =>
    rw [if_neg (by omega), if_neg (by omega), nearestDecimal]
    split <;> rfl

/-- Scaling is exact for a number below `2 ^ 53` and a power of ten up to `10 ^ 22`. -/
theorem toScaledBinary_eq_toBinary {x : Decimal} (hdigits : x.digits < 2 ^ 53)
    (hlow : -22 ≤ x.exponent) (hhigh : x.exponent ≤ 22) : x.toScaledBinary = x.toBinary := by
  have hunits : units (nearestRank x.digits 1) = x.digits * unitsPerOne := by
    simpa using units_nearestRank hdigits 0
  rw [toBinary_of_exponent (by omega) (by omega), nearestDecimal, toScaledBinary]
  split
  case isTrue hzero =>
    rw [hzero, Nat.zero_mul, nearestRank_zero, nearestRank_zero, ite_self]
  case isFalse =>
    rw [if_neg (by unfold greatestPower; omega)]
    split
    case isTrue hexponent =>
      rw [productRank, hunits, units_powerRank (by omega), Nat.mul_mul_mul_comm]
      have hscaled := nearestRank_mul (x.digits * 10 ^ x.exponent.toNat) 1
        (Nat.mul_pos unitsPerOne_pos unitsPerOne_pos)
      rw [Nat.one_mul] at hscaled
      rw [hscaled]
    case isFalse hexponent =>
      rw [dividedRank, if_pos (by unfold greatestPower; omega), quotientRank, hunits,
        units_powerRank (by omega), nearestRank_mul _ _ unitsPerOne_pos]

end SchemaLang.Decimal
