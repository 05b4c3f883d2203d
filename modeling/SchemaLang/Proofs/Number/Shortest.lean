import SchemaLang.Proofs.Number.Exact

/-!
# The digits that are found read back

A grid offers a point only if it reads back as the number, and on the finest grid the number itself
is a point. So the digits that are found always read back (`readsBack_shortest`).
-/

namespace SchemaLang.Binary64

-- Powers are those of the definitions, and not those of a monoid.
attribute [local instance (high)] instPowNat

variable {tie : Tie} {rank digits : Nat} {exponent : Int}

/-- A point that a grid offers reads back. -/
theorem readsBack_of_onGrid? (h : onGrid? tie rank exponent = some digits) :
    readsBack rank digits exponent = true := by
  simp only [onGrid?] at h
  split at h
  case h_1 hlow hhigh =>
    cases h
    split
    · exact hlow
    split
    · exact hhigh
    cases tie with
    | up => exact hhigh
    | even =>
      rcases Nat.mod_two_eq_zero_or_one
        ((dividedByTen rank exponent).1 / (dividedByTen rank exponent).2) with heven | hodd
      · simp only [heven, Nat.add_zero]
        exact hlow
      · simp only [hodd]
        exact hhigh
  case h_2 hlow hhigh =>
    cases h
    exact hlow
  case h_3 hlow hhigh =>
    cases h
    exact hhigh
  case h_4 => cases h

/-- Halves are tenths of fives. -/
theorem nearestDecimal_halves (n : Nat) {k : Nat} (hk : 0 < k) (hexponent : exponent = -k) :
    nearestDecimal (n * 5 ^ k) exponent = nearestRank n (2 ^ k) := by
  have hten : 10 ^ k = 2 ^ k * 5 ^ k := by rw [← Nat.mul_pow]
  rw [hexponent, nearestDecimal, if_neg (by omega), Int.neg_neg, Int.toNat_natCast, hten]
  exact nearestRank_mul n (2 ^ k) (Nat.pow_pos (by decide))

theorem readsBack_searchGrids (tie : Tie) (rank steps : Nat) :
    readsBack rank (searchGrids tie rank steps).digits (searchGrids tie rank steps).exponent =
      true := by
  induction steps with
  | zero =>
    have hfinest : nearestDecimal (units rank * 5 ^ (1074 : Nat)) (-1074) = rank := by
      have hunits := nearestRank_units rank
      rw [unitsPerOne] at hunits
      exact (nearestDecimal_halves (units rank) (by omega : 0 < 1074) (by omega)).trans hunits
    rw [readsBack_iff, searchGrids]
    exact hfinest
  | succ steps ih =>
    simp only [searchGrids]
    split
    case h_1 digits hfound => exact readsBack_of_onGrid? hfound
    case h_2 => exact ih

/-- The digits that are found read back. -/
theorem readsBack_shortest (tie : Tie) (rank : Nat) :
    readsBack rank (shortest tie rank).digits (shortest tie rank).exponent = true :=
  readsBack_searchGrids tie rank 1383

theorem readsBack_zero (h : rank ≠ 0) : readsBack rank 0 exponent = false := by
  simp [readsBack, nearestRank_zero, h.symm]

theorem digits_shortest_ne_zero (h : rank ≠ 0) : (shortest tie rank).digits ≠ 0 := by
  intro hzero
  have hread := readsBack_shortest tie rank
  rw [hzero, readsBack_zero h] at hread
  cases hread

/-- The decimal that is written for a magnitude, apart from its sign. -/
def decimalOf (tie : Tie) (rank : Nat) : Digits :=
  if rank = 0 then ⟨0, 0⟩ else shortest tie rank

theorem decimalOf_zero (tie : Tie) : decimalOf tie 0 = ⟨0, 0⟩ := if_pos rfl

theorem decimalOf_of_ne_zero (h : rank ≠ 0) : decimalOf tie rank = shortest tie rank := if_neg h

/-- The decimal that is written for a magnitude is rounded to this magnitude. -/
theorem nearestDecimal_decimalOf (tie : Tie) (rank : Nat) :
    nearestDecimal (decimalOf tie rank).digits (decimalOf tie rank).exponent = rank := by
  by_cases h : rank = 0
  · rw [h, decimalOf_zero, nearestDecimal, Nat.zero_mul, nearestRank_zero, nearestRank_zero,
      ite_self]
  · rw [decimalOf_of_ne_zero h, ← readsBack_iff]
    exact readsBack_shortest tie rank

/--
A finite number whose decimal, with zeros up to the first place behind the point, has digits that
make a number below `2 ^ 53`, at most 22 of them behind the point.
-/
def IsShort : Binary64 → Prop
  | finite _ rank =>
    (decimalOf .even rank).digits * 10 ^ ((decimalOf .even rank).exponent + 1).toNat < 2 ^ 53 ∧
      -22 ≤ (decimalOf .even rank).exponent
  | infinite _ | nan => False

instance : DecidablePred IsShort
  | finite _ _ => inferInstanceAs (Decidable (_ ∧ _))
  | infinite _ | nan => inferInstanceAs (Decidable False)

theorem isFinite_of_isShort {x : Binary64} (h : x.IsShort) : x.isFinite = true := by
  cases x with
  | finite negative rank => rfl
  | infinite negative => cases h
  | nan => cases h

/-- Zeros behind the digits of a short number leave the exponent small. -/
theorem exponent_le_of_isShort {negative : Bool} {rank : Fin magnitudeCount}
    (h : (finite negative rank).IsShort) : (decimalOf .even rank).exponent ≤ 15 := by
  by_cases hrank : rank.val = 0
  · rw [hrank, decimalOf_zero]
    decide
  apply Int.not_lt.1
  intro hlarge
  have hpositive : 0 < (decimalOf .even rank).digits := by
    rw [decimalOf_of_ne_zero hrank]
    exact Nat.pos_of_ne_zero (digits_shortest_ne_zero hrank)
  have hpower : 2 ^ 53 ≤
      (decimalOf .even rank).digits * 10 ^ ((decimalOf .even rank).exponent + 1).toNat := by
    calc
      2 ^ 53 ≤ 10 ^ 16 := by decide
      _ ≤ 10 ^ ((decimalOf .even rank).exponent + 1).toNat :=
        Nat.pow_le_pow_right (by decide) (by omega)
      _ ≤ (decimalOf .even rank).digits * 10 ^ ((decimalOf .even rank).exponent + 1).toNat :=
        Nat.le_mul_of_pos_left _ hpositive
  exact Nat.not_lt.2 hpower h.1

end SchemaLang.Binary64
