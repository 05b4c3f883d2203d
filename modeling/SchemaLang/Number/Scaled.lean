import SchemaLang.Number.Decimal

/-!
# Scaled decimals

A way from decimals to binary numbers whose work does not grow with the number of digits. Only the
leading digits that make a number below `2 ^ 64` are read; a place before the point that is not
read counts as a factor of ten. The number read is rounded, and then multiplied or divided by the
rounded power of ten, which rounds again. A number below `2 ^ 53` and a power up to `10 ^ 22` are
exact, so that the result is the nearest binary number; elsewhere it may miss that by a few ranks.
-/

namespace SchemaLang.Decimal

-- Powers are those of the core library, also where another power is in scope.
attribute [local instance (high)] instPowNat

/-- Appends digits to a number as long as it stays below `2 ^ 64`; the other digits are left. -/
def appendBounded (n : Nat) : List Char → Nat × List Char
  | [] => (n, [])
  | digit :: rest =>
    if appendDigit n digit < 2 ^ (64 : Nat) then appendBounded (appendDigit n digit) rest
    else (n, digit :: rest)

/-- The decimal with the given digits before and behind the point, cut to those that are read. -/
def bounded (negative : Bool) (whole fraction : List Char) (exponent : Int) : Decimal :=
  let (n, beyond) := appendBounded 0 whole
  let (digits, dropped) := appendBounded n fraction
  ⟨negative, digits, exponent + beyond.length + dropped.length - fraction.length⟩

/-- The greatest exponent of a power of ten that is finite when rounded. -/
def greatestPower : Nat := 308

/-- The rank nearest to a power of ten. -/
def powerRank (exponent : Nat) : Nat := Binary64.nearestRank (10 ^ exponent) 1

/--
A magnitude divided by a power of ten, in two steps if one power is not enough. Beyond two powers
nothing is left of a number below `2 ^ 64`.
-/
def dividedRank (rank exponent : Nat) : Nat :=
  if exponent ≤ greatestPower then Binary64.quotientRank rank (powerRank exponent)
  else if exponent ≤ 2 * greatestPower then
    Binary64.quotientRank (Binary64.quotientRank rank (powerRank greatestPower))
      (powerRank (exponent - greatestPower))
  else 0

/--
The binary number made by scaling of a decimal with bounded digits. A power of ten beyond the
greatest one makes every number infinite but zero.
-/
def toScaledBinary (x : Decimal) : Binary64 :=
  let rank := Binary64.nearestRank x.digits 1
  if x.digits = 0 then .ofRank x.negative 0
  else if greatestPower < x.exponent then .infinite x.negative
  else if 0 ≤ x.exponent then
    .ofRank x.negative (Binary64.productRank rank (powerRank x.exponent.toNat))
  else .ofRank x.negative (dividedRank rank (-x.exponent).toNat)

end SchemaLang.Decimal
