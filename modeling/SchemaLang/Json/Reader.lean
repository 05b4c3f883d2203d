import SchemaLang.Json.Value
import SchemaLang.Number.Scaled
import SchemaLang.Text.Quoted

/-!
# Reading JSON texts

A reader of the JSON grammar without extensions. Arrays and objects may be nested up to 127 levels
deep. An integer is kept exactly when it fits into 64 bits, signed or unsigned. Any other number,
and a zero with a minus, becomes a binary number by scaling, and one beyond the range of binary
numbers is refused.
-/

namespace SchemaLang.Json

-- Powers are those of the core library, also where another power is in scope.
attribute [local instance (high)] instPowNat

/-- How deep arrays and objects may be nested. -/
def maxDepth : Nat := 127

/-- Whether a character is white space of the JSON grammar. -/
def isBlank (c : Char) : Bool := c = ' ' || c = '\t' || c = '\n' || c = '\r'

/-- The text behind leading white space. -/
def skipBlank (cs : List Char) : List Char := cs.dropWhile isBlank

/-- The text behind a given beginning. -/
def behind? : List Char → List Char → Option (List Char)
  | [], cs => some cs
  | _ :: _, [] => none
  | w :: word, c :: cs => if w = c then behind? word cs else none

/-- A part of a number: nothing, or a mark followed by at least one digit. -/
def digitsAfter? (isMark : Char → Bool) (cs : List Char) : Option (List Char × List Char) :=
  match cs with
  | c :: rest =>
    if isMark c then
      match rest.span Decimal.isDigit with
      | ([], _) => none
      | (digits, rest) => some (digits, rest)
    else some ([], cs)
  | [] => some ([], [])

/-- The exponent of a number, if one is written. -/
def exponent? (cs : List Char) : Option (Option Int × List Char) :=
  match cs with
  | c :: rest =>
    if c = 'e' ∨ c = 'E' then
      let (negative, rest) := Decimal.splitSign rest
      match rest.span Decimal.isDigit with
      | ([], _) => none
      | (digits, rest) =>
        let n : Int := Decimal.ofDigits digits
        some (some (if negative then -n else n), rest)
    else some (none, cs)
  | [] => some (none, [])

/-- A number without a point and an exponent that is kept as an integer of 64 bits. -/
def integer? (negative : Bool) (whole : List Char) : Option Int :=
  let n := Decimal.ofDigits whole
  if negative then if n ≠ 0 ∧ n ≤ 2 ^ (63 : Nat) then some (-(n : Int)) else none
  else if n < 2 ^ (64 : Nat) then some n
  else none

/-- The value of a number with the given digits before and behind the point, unless too large. -/
def ofParts? (negative : Bool) (whole fraction : List Char) (exponent : Option Int) :
    Option Json :=
  let kept := if fraction = [] ∧ exponent = none then integer? negative whole else none
  match kept with
  | some n => some (integer n)
  | none =>
    let x := (Decimal.bounded negative whole fraction (exponent.getD 0)).toScaledBinary
    if x.isFinite then some (float x) else none

/-- A number; the digits before the point have no leading zero. -/
def number? (cs : List Char) : Option (Json × List Char) := do
  let (negative, rest) :=
    match cs with
    | '-' :: rest => (true, rest)
    | _ => (false, cs)
  let (whole, rest) := rest.span Decimal.isDigit
  if whole = [] ∨ (whole.head? = some '0' ∧ whole ≠ ['0']) then none
  else
    let (fraction, rest) ← digitsAfter? (· = '.') rest
    let (exponent, rest) ← exponent? rest
    let value ← ofParts? negative whole fraction exponent
    return (value, rest)

/--
At least one item, with commas between the items, up to a closing bracket. The item reader is
given the text behind white space.
-/
def itemsUpTo? {α : Type} (close : Char) (item? : List Char → Option (α × List Char))
    (cs : List Char) : Option (List α × List Char) :=
  match item? (skipBlank cs) with
  | none => none
  | some (item, rest) =>
    match skipBlank rest with
    | [] => none
    | c :: rest =>
      if c = close then some ([item], rest)
      else if c = ',' ∧ rest.length < cs.length then
        (itemsUpTo? close item? rest).map fun (items, rest) => (item :: items, rest)
      else none
termination_by cs.length

/-- A key, a colon and the value behind it. -/
def keyed? (value? : List Char → Option (Json × List Char)) :
    List Char → Option ((String × Json) × List Char)
  | '"' :: rest => do
    let (key, rest) ← Text.Quoted.decode? rest
    let rest ← behind? [':'] (skipBlank rest)
    let (value, rest) ← value? (skipBlank rest)
    return ((String.ofList key, value), rest)
  | _ => none

/-- A value at the beginning of a text, nested up to the given depth. -/
def value? (depth : Nat) (cs : List Char) : Option (Json × List Char) :=
  match depth, cs with
  | _, '"' :: rest =>
    (Text.Quoted.decode? rest).map fun (text, rest) => (string (String.ofList text), rest)
  | 0, '[' :: _ => none
  | 0, '{' :: _ => none
  | depth + 1, '[' :: rest =>
    match skipBlank rest with
    | ']' :: rest => some (array [], rest)
    | rest => (itemsUpTo? ']' (value? depth) rest).map fun (items, rest) => (array items, rest)
  | depth + 1, '{' :: rest =>
    match skipBlank rest with
    | '}' :: rest => some (object [], rest)
    | rest =>
      (itemsUpTo? '}' (keyed? (value? depth)) rest).map fun (members, rest) =>
        (object members, rest)
  | _, 'n' :: rest => (behind? "ull".toList rest).map fun rest => (null, rest)
  | _, 't' :: rest => (behind? "rue".toList rest).map fun rest => (bool true, rest)
  | _, 'f' :: rest => (behind? "alse".toList rest).map fun rest => (bool false, rest)
  | _, cs => number? cs

/-- The value of a text that holds one JSON value and white space around it. -/
def read? (text : String) : Option Json :=
  match value? maxDepth (skipBlank text.toList) with
  | some (value, rest) => if skipBlank rest = [] then some value else none
  | none => none

end SchemaLang.Json
