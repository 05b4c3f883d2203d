import SchemaLang.Number.Shortest

/-!
# Number formats

A number format lays out the shortest digits of a binary number: positionally, or with one digit
before the point and a power of ten. A format is a value of the type `NumberFormat`, so that what
one format decides stands in one place.
-/

namespace SchemaLang

/-- The decisions of a number format. -/
structure NumberFormat where
  /-- Which of two equally close digit sequences is taken. -/
  tie : Tie
  /-- The least and the greatest decimal exponent written positionally; none for all of them. -/
  positional : Option (Int × Int)
  /-- Whether whole numbers written positionally end in a point and a zero. -/
  keepsPoint : Bool
  /-- Whether an exponent that is not negative has a plus. -/
  plusExponent : Bool

namespace NumberFormat

/-- The plain form: always positional, and whole numbers without a point. -/
def plain : NumberFormat := ⟨.up, none, false, false⟩

/-- The form of numbers inside JSON texts. -/
def json : NumberFormat := ⟨.even, some (-5, 15), true, true⟩

/-- Digits with the point behind the given number of them, padded with zeros on either side. -/
def layPositional (keepsPoint : Bool) (digits : List Char) (point : Int) : List Char :=
  if point ≤ 0 then '0' :: '.' :: (List.replicate (-point).toNat '0' ++ digits)
  else if digits.length ≤ point.toNat then
    digits ++ List.replicate (point.toNat - digits.length) '0' ++
      if keepsPoint then ['.', '0'] else []
  else digits.take point.toNat ++ '.' :: digits.drop point.toNat

/-- Digits with the point behind the first one, and a power of ten. -/
def layScientific (plusExponent : Bool) (digits : List Char) (exponent : Int) : List Char :=
  let fraction :=
    match digits.tail with
    | [] => []
    | rest => '.' :: rest
  let sign :=
    if exponent < 0 then ['-']
    else if plusExponent then ['+']
    else []
  digits.take 1 ++ fraction ++ 'e' :: (sign ++ Decimal.toDigits exponent.natAbs)

/-- The text of a magnitude. -/
def layMagnitude (format : NumberFormat) (rank : Nat) : List Char :=
  if rank = 0 then if format.keepsPoint then ['0', '.', '0'] else ['0']
  else
    let found := Binary64.shortest format.tie rank
    let digits := Decimal.toDigits found.digits
    let exponent : Int := found.exponent + digits.length - 1
    let isPositional :=
      match format.positional with
      | none => true
      | some (least, greatest) => least ≤ exponent && exponent ≤ greatest
    if isPositional then layPositional format.keepsPoint digits (exponent + 1)
    else layScientific format.plusExponent digits exponent

/-- The text of a number. -/
def lay (format : NumberFormat) : Binary64 → String
  | .finite negative rank =>
    String.ofList ((if negative then ['-'] else []) ++ format.layMagnitude rank)
  | .infinite negative => if negative then "-inf" else "inf"
  | .nan => "NaN"

end NumberFormat

end SchemaLang
