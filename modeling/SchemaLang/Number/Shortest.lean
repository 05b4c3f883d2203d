import SchemaLang.Number.Decimal

/-!
# Shortest decimal digits

A binary number is written with the fewest decimal digits that read back as the same number. The
digits are found on the coarsest decimal grid (the multiples of a power of ten) that has a point
reading back: only the two points next to the number come into question, the nearer of two wins,
and a tie is a decision of the format. The search ends because every binary number is itself
a multiple of `10 ^ -1074`.
-/

namespace SchemaLang

-- Powers are those of the core library, also where another power is in scope.
attribute [local instance (high)] instPowNat

/-- Which of two equally close neighbours is taken. -/
inductive Tie where
  | up
  | even
  deriving DecidableEq, Repr

/-- The digits and the exponent of a positive decimal. -/
structure Digits where
  digits : Nat
  exponent : Int
  deriving DecidableEq, Repr

namespace Binary64

/-- Whether a decimal reads back as the magnitude of a rank. -/
def readsBack (rank digits : Nat) (exponent : Int) : Bool :=
  if 0 ≤ exponent then nearestRank (digits * 10 ^ exponent.toNat) 1 = rank
  else nearestRank digits (10 ^ (-exponent).toNat) = rank

/-- A magnitude divided by a power of ten, as numerator and denominator. -/
def dividedByTen (rank : Nat) (exponent : Int) : Nat × Nat :=
  if 0 ≤ exponent then (units rank, unitsPerOne * 10 ^ exponent.toNat)
  else (units rank * 10 ^ (-exponent).toNat, unitsPerOne)

/-- The point of a decimal grid that is closest to a magnitude among those that read back. -/
def onGrid? (tie : Tie) (rank : Nat) (exponent : Int) : Option Nat :=
  let (num, den) := dividedByTen rank exponent
  let low := num / den
  let rest := num % den
  let nearer :=
    if 2 * rest < den then low
    else if den < 2 * rest then low + 1
    else match tie with
      | .up => low + 1
      | .even => low + low % 2
  match readsBack rank low exponent, readsBack rank (low + 1) exponent with
  | true, true => some nearer
  | true, false => some low
  | false, true => some (low + 1)
  | false, false => none

/-- Searches the grids from `10 ^ (steps - 1074)` downwards. -/
def searchGrids (tie : Tie) (rank : Nat) : Nat → Digits
  | 0 => ⟨units rank * 5 ^ (1074 : Nat), -1074⟩
  | steps + 1 =>
    let exponent : Int := (steps + 1 : Nat) - 1074
    match onGrid? tie rank exponent with
    | some digits => ⟨digits, exponent⟩
    | none => searchGrids tie rank steps

/-- The shortest digits of the magnitude of a rank other than zero. -/
def shortest (tie : Tie) (rank : Nat) : Digits := searchGrids tie rank 1383

end Binary64

end SchemaLang
