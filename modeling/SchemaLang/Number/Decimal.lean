import SchemaLang.Number.Binary64

/-!
# Decimal notation

Numbers written with decimal digits. A decimal is a whole number of digits times a power of ten;
it has an exact value, and a nearest binary number. Two notations of integers and one of binary
numbers are read here. The notation of binary numbers takes a sign, digits on at least one side of
the point, an exponent, and the names of infinity and of the undefined number in any letter case.
-/

namespace SchemaLang

-- Powers are those of the core library, also where another power is in scope.
attribute [local instance (high)] instPowNat

/-- The number `digits * 10 ^ exponent` with a sign. -/
structure Decimal where
  negative : Bool
  digits : Nat
  exponent : Int
  deriving DecidableEq, Repr

namespace Decimal

/-- Whether a character is one of the ten digits of the Latin script. -/
def isDigit (c : Char) : Bool := '0' ≤ c && c ≤ '9'

/-- The number with one more digit at its end. -/
def appendDigit (n : Nat) (digit : Char) : Nat := n * 10 + (digit.toNat - '0'.toNat)

/-- The number that a list of digits denotes. -/
def ofDigits (digits : List Char) : Nat := digits.foldl appendDigit 0

/-- The digits of a number, the greatest first. -/
def toDigits (n : Nat) : List Char := Nat.toDigits 10 n

/--
The binary number nearest to a decimal. Exponents far beyond the range of binary numbers are
decided without computing the power.
-/
def toBinary (x : Decimal) : Binary64 :=
  if x.digits = 0 then .ofRank x.negative 0
  else if 400 < x.exponent then .infinite x.negative
  else if x.exponent + 400 + Nat.log2 x.digits < 0 then .ofRank x.negative 0
  else if 0 ≤ x.exponent then .ofRatio x.negative (x.digits * 10 ^ x.exponent.toNat) 1
  else .ofRatio x.negative x.digits (10 ^ (-x.exponent).toNat)

/-- Splits a sign off a text; the flag is set for a minus. -/
def splitSign : List Char → Bool × List Char
  | '-' :: rest => (true, rest)
  | '+' :: rest => (false, rest)
  | cs => (false, cs)

/-- A text made of digits only, at least one of them. -/
def readNat? (cs : List Char) : Option Nat :=
  if cs ≠ [] ∧ cs.all isDigit then some (ofDigits cs) else none

/-- Digits with an optional sign. -/
def readInt? (cs : List Char) : Option Int :=
  let (negative, rest) := splitSign cs
  (readNat? rest).map fun n => if negative then -(n : Int) else n

/-- The part of a text behind an exponent mark; without one the exponent is zero. -/
def readExponent? : List Char → Option Int
  | [] => some 0
  | c :: rest => if c = 'e' ∨ c = 'E' then readInt? rest else none

/-- Splits the digits behind a point off a text. -/
def splitFraction : List Char → List Char × List Char
  | '.' :: rest => rest.span isDigit
  | cs => ([], cs)

/-- A decimal in the notation of binary numbers. -/
def read? (cs : List Char) : Option Decimal := do
  let (negative, rest) := splitSign cs
  let (whole, rest) := rest.span isDigit
  let (fraction, rest) := splitFraction rest
  if whole = [] ∧ fraction = [] then none
  else
    let exponent ← readExponent? rest
    return ⟨negative, ofDigits (whole ++ fraction), exponent - fraction.length⟩

end Decimal

/-- Whether an integer fits into 64 bits with a sign. -/
def inSigned64 (n : Int) : Bool := -2 ^ (63 : Nat) ≤ n && n < 2 ^ (63 : Nat)

/-- A signed integer of 64 bits in decimal digits with an optional sign. -/
def readSigned64? (text : String) : Option Int64 :=
  ((Decimal.readInt? text.toList).filter inSigned64).map Int64.ofInt

/-- An unsigned integer of 64 bits in decimal digits; a plus may precede them. -/
def readUnsigned64? (text : String) : Option UInt64 :=
  let digits :=
    match text.toList with
    | '+' :: rest => rest
    | cs => cs
  ((Decimal.readNat? digits).filter (· < 2 ^ (64 : Nat))).map UInt64.ofNat

/-- A binary number in decimal notation, rounded to the nearest one, or by name. -/
def Binary64.read? (text : String) : Option Binary64 :=
  let (negative, rest) := Decimal.splitSign text.toList
  let name := String.ofList (rest.map Char.toLower)
  if name = "inf" ∨ name = "infinity" then some (.infinite negative)
  else if name = "nan" then some .nan
  else (Decimal.read? text.toList).map Decimal.toBinary

end SchemaLang
