/-!
# Binary floating point numbers

The numbers of the 64 bit binary interchange format, as exact values. The finite magnitudes in
increasing order are numbered by their *rank*, starting with zero; every magnitude is a whole
number of *units* of `2 ^ -1074`, and the function `units` says which. Rank and sign determine
a finite number, so there are two zeros. Rounding a quotient of natural numbers to the nearest
magnitude, ties to the even rank, is exact integer arithmetic, and so are the product and the
quotient of two magnitudes, which are rounded once.
-/

namespace SchemaLang

-- Powers are those of the core library, also where another power is in scope.
attribute [local instance (high)] instPowNat

/-- How many finite magnitudes there are. -/
def magnitudeCount : Nat := 2047 * 2 ^ (52 : Nat)

/-- The units in a whole number. -/
def unitsPerOne : Nat := 2 ^ (1074 : Nat)

/-- A binary floating point number of 64 bits. -/
inductive Binary64 where
  | finite (negative : Bool) (rank : Fin magnitudeCount)
  | infinite (negative : Bool)
  | nan
  deriving DecidableEq

namespace Binary64

/-- How often the significand of a magnitude is doubled. -/
def scale (rank : Nat) : Nat := rank / 2 ^ (52 : Nat) - 1

/-- The significand of a magnitude, which has 53 bits unless the magnitude is subnormal. -/
def significand (rank : Nat) : Nat :=
  if rank < 2 ^ (52 : Nat) then rank else 2 ^ (52 : Nat) + rank % 2 ^ (52 : Nat)

/-- The units in the magnitude of a rank. -/
def units (rank : Nat) : Nat := significand rank * 2 ^ scale rank

/-- The number with a sign and a rank; magnitudes beyond the last rank are infinite. -/
def ofRank (negative : Bool) (rank : Nat) : Binary64 :=
  if h : rank < magnitudeCount then .finite negative ⟨rank, h⟩ else .infinite negative

/-- A quotient of natural numbers to the nearest whole number, ties to the even one. -/
def divideHalfEven (num den : Nat) : Nat :=
  let quotient := num / den
  let rest := num % den
  if 2 * rest < den then quotient
  else if den < 2 * rest then quotient + 1
  else quotient + quotient % 2

/-- The rank nearest to a quotient of natural numbers, ties to the even rank. -/
def nearestRank (num den : Nat) : Nat :=
  let shift := Nat.log2 (num * unitsPerOne / den) - 52
  shift * 2 ^ (52 : Nat) + divideHalfEven (num * unitsPerOne) (den * 2 ^ shift)

/-- The rank nearest to the product of two magnitudes. -/
def productRank (a b : Nat) : Nat := nearestRank (units a * units b) (unitsPerOne * unitsPerOne)

/-- The rank nearest to the quotient of two magnitudes, the second of which is not zero. -/
def quotientRank (a b : Nat) : Nat := nearestRank (units a) (units b)

/-- The number nearest to a quotient of natural numbers with a sign. -/
def ofRatio (negative : Bool) (num den : Nat) : Binary64 := ofRank negative (nearestRank num den)

/-- The number nearest to an integer. -/
def ofInt (n : Int) : Binary64 := ofRatio (n < 0) n.natAbs 1

/-- The zero without a sign. -/
def zero : Binary64 := ofRank false 0

/-- Whether a number is finite. -/
def isFinite : Binary64 → Bool
  | .finite .. => true
  | _ => false

/-- The natural number that a finite number is equal to, if there is one. -/
def toNat? : Binary64 → Option Nat
  | .finite negative rank =>
    if negative ∧ rank.val ≠ 0 then none
    else if units rank % unitsPerOne = 0 then some (units rank / unitsPerOne)
    else none
  | _ => none

end Binary64

end SchemaLang
