import Mathlib.Algebra.Order.AbsoluteValue.Basic
import Mathlib.Data.Nat.Dist
import SchemaLang.Proofs.Number.Value

/-!
# Rounding to the nearest number

The number that a value is rounded to is the nearest one, and of two equally near the one with the
even rank (`isNearestRank_nearestRank`). Where the magnitudes are the multiples of a power of two,
rounding picks the nearest multiple. All magnitudes from the least of these multiples on are
multiples too, and the smaller magnitudes are not nearer than that least one. So a decimal becomes
the binary number nearest to its exact value, also where the exponent decides alone
(`Decimal.isNearest_toBinary`).
-/

namespace SchemaLang

-- Powers are those of the definitions, and not those of a monoid.
attribute [local instance (high)] instPowNat

namespace Binary64

/-! ## What the nearest number is -/

/-- The magnitude of a rank is nearest to a value; of two equally near it has the even rank. -/
structure IsNearestRank (rank : Nat) (value : ℚ) : Prop where
  nearest : ∀ other, |magnitude rank - value| ≤ |magnitude other - value|
  even : ∀ other, other ≠ rank → |magnitude other - value| = |magnitude rank - value| →
    rank % 2 = 0

/--
The number nearest to a value with a sign. A value that would be rounded beyond the finite
magnitudes, were there any further ones, gives an infinite number.
-/
def IsNearest (x : Binary64) (negative : Bool) (value : ℚ) : Prop :=
  ∃ rank, IsNearestRank rank value ∧ x = ofRank negative rank

/-! ## Nearest multiples -/

/-- The rounded quotient is one of its two neighbours, and the even one of two equally near. -/
theorem divideHalfEven_cases (num den : Nat) :
    divideHalfEven num den = num / den ∧ 2 * (num % den) ≤ den ∧
        (2 * (num % den) = den → divideHalfEven num den % 2 = 0) ∨
      divideHalfEven num den = num / den + 1 ∧ den ≤ 2 * (num % den) ∧
        (2 * (num % den) = den → divideHalfEven num den % 2 = 0) := by
  unfold divideHalfEven
  dsimp only
  split_ifs with hlow hhigh
  · exact .inl ⟨rfl, by omega, by omega⟩
  · exact .inr ⟨rfl, by omega, by omega⟩
  · rcases Nat.mod_two_eq_zero_or_one (num / den) with heven | hodd
    · exact .inl (by omega)
    · exact .inr (by omega)

/-- A multiple is one of the two around a number, or it lies beyond one of them. -/
theorem mul_side (num den m : Nat) :
    (m + 1) * den ≤ num / den * den ∨ m = num / den ∨ m = num / den + 1 ∨
      (num / den + 2) * den ≤ m * den := by
  rcases Nat.lt_or_ge m (num / den) with hlt | hle
  · exact .inl (Nat.mul_le_mul_right den hlt)
  · rcases Nat.lt_or_ge (num / den + 1) m with hlt | hge
    · exact .inr (.inr (.inr (Nat.mul_le_mul_right den hlt)))
    · omega

section Multiples

variable {num den m : Nat} (hden : 0 < den)

include hden

/-- No multiple is nearer than that of the rounded quotient. -/
theorem dist_divideHalfEven_le :
    Nat.dist (divideHalfEven num den * den) num ≤ Nat.dist (m * den) num := by
  have hsplit : num / den * den + num % den = num := Nat.div_add_mod' num den
  have hrest := Nat.mod_lt num hden
  have hside := mul_side num den m
  rw [Nat.succ_mul, Nat.add_mul] at hside
  unfold Nat.dist
  rcases divideHalfEven_cases num den with ⟨hquotient, hnear, -⟩ | ⟨hquotient, hnear, -⟩
  · rw [hquotient]
    rcases hside with hbelow | rfl | rfl | habove
    · omega
    · omega
    · rw [Nat.succ_mul]
      omega
    · omega
  · rw [hquotient, Nat.succ_mul]
    rcases hside with hbelow | rfl | rfl | habove
    · omega
    · omega
    · rw [Nat.succ_mul]
    · omega

/-- If another multiple is equally near, the rounded quotient is even. -/
theorem even_divideHalfEven (hne : m ≠ divideHalfEven num den)
    (h : Nat.dist (m * den) num = Nat.dist (divideHalfEven num den * den) num) :
    divideHalfEven num den % 2 = 0 := by
  have hsplit : num / den * den + num % den = num := Nat.div_add_mod' num den
  have hrest := Nat.mod_lt num hden
  have hside := mul_side num den m
  rw [Nat.succ_mul, Nat.add_mul] at hside
  unfold Nat.dist at h
  rcases divideHalfEven_cases num den with ⟨hquotient, hnear, heven⟩ | ⟨hquotient, hnear, heven⟩
  · apply heven
    rw [hquotient] at h hne
    rcases hside with hbelow | rfl | rfl | habove
    · omega
    · exact absurd rfl hne
    · rw [Nat.succ_mul] at h
      omega
    · omega
  · apply heven
    rw [hquotient, Nat.succ_mul] at h
    rw [hquotient] at hne
    rcases hside with hbelow | rfl | rfl | habove
    · omega
    · omega
    · exact absurd rfl hne
    · omega

end Multiples

/-! ## Magnitudes and multiples -/

/-- From the first magnitude that is doubled so often on, all magnitudes are. -/
theorem two_pow_dvd_units {rank doubled : Nat} (h : 2 ^ (52 + doubled) ≤ units rank) :
    2 ^ doubled ∣ units rank := by
  have hzero : units rank ≠ 0 := Nat.ne_of_gt (Nat.lt_of_lt_of_le (Nat.two_pow_pos _) h)
  have hlog : 52 + doubled ≤ (units rank).log2 := (Nat.le_log2 hzero).2 h
  have hscale : doubled ≤ scale rank := by
    rw [← log2_units]
    omega
  exact (Nat.pow_dvd_pow 2 hscale).trans (Nat.dvd_mul_left _ _)

/-! ## Rounding is to the nearest magnitude -/

section Quotient

variable {num den : Nat} (hden : 0 < den)

include hden

theorem step_pos : 0 < den * 2 ^ doublings num den := Nat.mul_pos hden (Nat.two_pow_pos _)

/-- A magnitude is a multiple of the step, or it is farther away than the nearest multiple. -/
theorem exists_multiple_or_farther (num other : Nat) :
    (∃ m, units other * den = m * (den * 2 ^ doublings num den)) ∨
      Nat.dist (units (nearestRank num den) * den) (num * unitsPerOne) <
        Nat.dist (units other * den) (num * unitsPerOne) := by
  rcases Nat.lt_or_ge (units other) (2 ^ (52 + doublings num den)) with hlt | hle
  · by_cases hzero : doublings num den = 0
    · exact .inl ⟨units other, by rw [hzero, Nat.pow_zero, Nat.mul_one]⟩
    · have hfirst : 2 ^ 52 * (den * 2 ^ doublings num den) =
          2 ^ (52 + doublings num den) * den := by
        rw [Nat.pow_add, Nat.mul_assoc, Nat.mul_comm den]
      have hbelow : 2 ^ (52 + doublings num den) * den ≤ num * unitsPerOne :=
        Nat.le_trans (Nat.mul_le_mul_right den (two_pow_le_of_doublings hzero))
          (Nat.div_mul_le_self _ _)
      have hother := Nat.mul_lt_mul_of_pos_right hlt hden
      -- The first multiple lies between the other magnitude and the quotient.
      have hnearest : Nat.dist (units (nearestRank num den) * den) (num * unitsPerOne) ≤
          Nat.dist (2 ^ 52 * (den * 2 ^ doublings num den)) (num * unitsPerOne) := by
        rw [units_nearestRank_mul num den]
        exact dist_divideHalfEven_le (step_pos hden)
      rw [hfirst] at hnearest
      refine .inr (Nat.lt_of_le_of_lt hnearest ?_)
      rw [Nat.dist_eq_sub_of_le hbelow, Nat.dist_eq_sub_of_le (hother.le.trans hbelow)]
      omega
  · obtain ⟨m, hm⟩ := two_pow_dvd_units hle
    exact .inl ⟨m, by rw [hm]; ac_rfl⟩

/-- The distance of a magnitude from a quotient by whole numbers. -/
theorem abs_magnitude_sub (rank num : Nat) : |magnitude rank - num / den| =
    (Nat.dist (units rank * den) (num * unitsPerOne) : ℚ) / (unitsPerOne * den) := by
  have hunit := cast_unitsPerOne_pos
  have hcast : (0 : ℚ) < den := Nat.cast_pos.2 hden
  have hdist (a b : Nat) : |(a : ℚ) - b| = (Nat.dist a b : ℚ) := by
    rcases Nat.le_total a b with hle | hle
    · rw [Nat.dist_eq_sub_of_le hle, abs_sub_comm, Nat.cast_sub hle]
      exact abs_of_nonneg (sub_nonneg.2 (Nat.cast_le.2 hle))
    · rw [Nat.dist_eq_sub_of_le_right hle, Nat.cast_sub hle]
      exact abs_of_nonneg (sub_nonneg.2 (Nat.cast_le.2 hle))
  rw [magnitude, div_sub_div _ _ hunit.ne' hcast.ne', abs_div, abs_of_pos (mul_pos hunit hcast),
    ← hdist, Nat.cast_mul, Nat.cast_mul, mul_comm (unitsPerOne : ℚ) num]

/-- The rank that a quotient is rounded to is that of the nearest magnitude. -/
theorem isNearestRank_nearestRank (num : Nat) :
    IsNearestRank (nearestRank num den) (num / den) := by
  have hscale : (0 : ℚ) < unitsPerOne * den :=
    mul_pos cast_unitsPerOne_pos (Nat.cast_pos.2 hden)
  have hunits := units_nearestRank_mul num den
  constructor
  · intro other
    rw [abs_magnitude_sub hden, abs_magnitude_sub hden, div_le_div_iff_of_pos_right hscale,
      Nat.cast_le]
    rcases exists_multiple_or_farther hden num other with ⟨m, hm⟩ | hfarther
    · rw [hm, hunits]
      exact dist_divideHalfEven_le (step_pos hden)
    · exact hfarther.le
  · intro other hne heq
    rw [abs_magnitude_sub hden, abs_magnitude_sub hden, div_left_inj' hscale.ne', Nat.cast_inj]
      at heq
    obtain ⟨m, hm⟩ := (exists_multiple_or_farther hden num other).resolve_right
      heq.not_gt
    have hother : m ≠ stepQuotient num den := by
      rintro rfl
      have hsame : units other = units (nearestRank num den) :=
        Nat.eq_of_mul_eq_mul_right hden (hm.trans hunits.symm)
      apply hne
      rw [← nearestRank_units other, hsame, nearestRank_units]
    rw [hm, hunits] at heq
    have heven := even_divideHalfEven (step_pos hden) hother heq
    rw [nearestRank_eq, stepQuotient]
    omega

end Quotient

theorem isNearest_ofRatio {num den : Nat} (hden : 0 < den) (negative : Bool) :
    (ofRatio negative num den).IsNearest negative (num / den) :=
  ⟨_, isNearestRank_nearestRank hden num, rfl⟩

/-! ## Far out of range -/

theorem units_lt {rank : Nat} (h : rank < magnitudeCount) :
    units rank < 2 ^ (1024 : Nat) * unitsPerOne := by
  have hsignificand : significand rank < 2 ^ (53 : Nat) := by
    unfold significand
    split_ifs <;> omega
  have hscale : scale rank ≤ 2045 := by
    unfold magnitudeCount at h
    unfold scale
    omega
  have hsum (a b c d : Nat) (h : a + b = c + d) : 2 ^ a * 2 ^ b = 2 ^ c * 2 ^ d := by
    rw [← Nat.pow_add, ← Nat.pow_add, h]
  rw [unitsPerOne, hsum 1024 1074 53 2045 rfl]
  calc
    units rank < 2 ^ (53 : Nat) * 2 ^ scale rank :=
      Nat.mul_lt_mul_of_pos_right hsignificand (Nat.two_pow_pos _)
    _ ≤ 2 ^ (53 : Nat) * 2 ^ (2045 : Nat) := by
      apply Nat.mul_le_mul_left
      apply Nat.pow_le_pow_right Nat.two_pos
      exact hscale

/-- Whole numbers from `2 ^ 1024` on are beyond the finite magnitudes. -/
theorem magnitudeCount_le_nearestRank {n : Nat} (h : 2 ^ (1024 : Nat) ≤ n) :
    magnitudeCount ≤ nearestRank n 1 := by
  by_contra hfinite
  have hlt := units_lt (Nat.not_le.1 hfinite)
  have hle : 2 ^ (1024 : Nat) ≤ nearestWhole n := two_pow_le_nearestWhole (k := 1024) (by decide) h
  rw [units_nearestRank_one] at hlt
  exact absurd (Nat.mul_le_mul_right unitsPerOne hle) (Nat.not_le.2 hlt)

/-- Less than half of a unit is rounded to zero. -/
theorem nearestRank_of_small {num den : Nat} (h : 2 * (num * unitsPerOne) < den) :
    nearestRank num den = 0 := by
  have hquotient : num * unitsPerOne / den = 0 := Nat.div_eq_of_lt (by omega)
  have hrest : num * unitsPerOne % den = num * unitsPerOne := Nat.mod_eq_of_lt (by omega)
  simp only [nearestRank, divideHalfEven, hquotient, Nat.log2_zero, Nat.zero_sub, Nat.pow_zero,
    Nat.mul_one, hrest, h, if_true, Nat.zero_mul]

end Binary64

/-! ## Decimals -/

namespace Decimal

open Binary64

/-- The exact absolute value of a decimal. -/
def magnitude (x : Decimal) : ℚ := x.digits * (10 : ℚ) ^ x.exponent

theorem magnitude_of_nonneg {x : Decimal} (h : 0 ≤ x.exponent) :
    x.magnitude = ((x.digits * 10 ^ x.exponent.toNat : Nat) : ℚ) / (1 : Nat) := by
  obtain ⟨k, hk⟩ := Int.eq_ofNat_of_zero_le h
  rw [magnitude, hk, zpow_natCast, Int.toNat_natCast, Nat.cast_one, div_one, Nat.cast_mul,
    Nat.cast_pow, Nat.cast_ofNat]

theorem magnitude_of_nonpos {x : Decimal} (h : x.exponent ≤ 0) :
    x.magnitude = (x.digits : ℚ) / ((10 ^ (-x.exponent).toNat : Nat) : ℚ) := by
  obtain ⟨k, hk⟩ := Int.eq_ofNat_of_zero_le (Int.neg_nonneg_of_nonpos h)
  have hexponent : x.exponent = -(k : Int) := by omega
  rw [magnitude, hk, Int.toNat_natCast, hexponent, zpow_neg, zpow_natCast, Nat.cast_pow,
    Nat.cast_ofNat, div_eq_mul_inv]

theorem two_pow_le_ten_pow (k : Nat) : 2 ^ (3 * k) ≤ 10 ^ k := by
  rw [Nat.pow_mul]
  exact Nat.pow_le_pow_left (by decide) k

/-- A decimal becomes the binary number nearest to its exact value. -/
theorem isNearest_toBinary (x : Decimal) : x.toBinary.IsNearest x.negative x.magnitude := by
  unfold toBinary
  split_ifs with hzero hlarge hsmall hnonneg
  · have hvalue : x.magnitude = ((0 : Nat) : ℚ) / (1 : Nat) := by
      rw [magnitude, hzero, Nat.cast_zero, zero_mul, zero_div]
    have hnearest := isNearestRank_nearestRank Nat.one_pos 0
    rw [nearestRank_zero, ← hvalue] at hnearest
    exact ⟨0, hnearest, rfl⟩
  · have hbig : 2 ^ (1024 : Nat) ≤ x.digits * 10 ^ x.exponent.toNat :=
      calc
        2 ^ (1024 : Nat) ≤ 2 ^ (3 * x.exponent.toNat) := by
          apply Nat.pow_le_pow_right Nat.two_pos
          omega
        _ ≤ 10 ^ x.exponent.toNat := two_pow_le_ten_pow _
        _ ≤ x.digits * 10 ^ x.exponent.toNat :=
          Nat.le_mul_of_pos_left _ (Nat.pos_of_ne_zero hzero)
    have hbeyond := magnitudeCount_le_nearestRank hbig
    rw [magnitude_of_nonneg (by omega)]
    refine ⟨_, isNearestRank_nearestRank Nat.one_pos _, ?_⟩
    rw [ofRank, dif_neg (Nat.not_lt.2 hbeyond)]
  · have hlog : x.digits < 2 ^ (x.digits.log2 + 1) := Nat.lt_log2_self
    have hunits : 2 * (x.digits * unitsPerOne) < 10 ^ (-x.exponent).toNat :=
      calc
        2 * (x.digits * unitsPerOne) < 2 * (2 ^ (x.digits.log2 + 1) * unitsPerOne) :=
          Nat.mul_lt_mul_of_pos_left
            (Nat.mul_lt_mul_of_pos_right hlog unitsPerOne_pos) (by decide)
        _ = 2 ^ (x.digits.log2 + 1 + 1074 + 1) := by
          rw [unitsPerOne, ← Nat.pow_add 2 (x.digits.log2 + 1) 1074, ← Nat.pow_succ']
        _ ≤ 2 ^ (3 * (-x.exponent).toNat) := Nat.pow_le_pow_right (by decide) (by omega)
        _ ≤ 10 ^ (-x.exponent).toNat := two_pow_le_ten_pow _
    have hten : 0 < 10 ^ (-x.exponent).toNat := Nat.pow_pos (by decide)
    have hnearest := isNearestRank_nearestRank hten x.digits
    rw [nearestRank_of_small hunits, ← magnitude_of_nonpos (by omega)] at hnearest
    exact ⟨0, hnearest, rfl⟩
  · rw [magnitude_of_nonneg hnonneg]
    exact isNearest_ofRatio Nat.one_pos _
  · rw [magnitude_of_nonpos (by omega)]
    exact isNearest_ofRatio (Nat.pow_pos (by decide)) _

end Decimal

end SchemaLang
