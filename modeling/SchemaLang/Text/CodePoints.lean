/-!
# Sets and maps of code points

Character classes are sorted tables of code points. A class with few gaps is a list of closed
ranges. Letter case alternates from one code point to the next in many scripts, so the tables of
letter case are made of runs with a stride.
-/

namespace SchemaLang.Text

/-- Membership in a sorted list of closed ranges that do not overlap. -/
def inRanges : List (Nat × Nat) → Nat → Bool
  | [], _ => false
  | (first, last) :: rest, c => !(c < first) && (c ≤ last || inRanges rest c)

/-- The code points `first`, `first + stride`, and so on up to `last`. -/
structure Run where
  first : Nat
  last : Nat
  stride : Nat

/-- Whether a code point is one of a run. -/
def Run.contains (run : Run) (c : Nat) : Bool :=
  run.first ≤ c && c ≤ run.last && (c - run.first) % run.stride = 0

/-- Membership in a sorted list of runs that do not overlap. -/
def inRuns : List Run → Nat → Bool
  | [], _ => false
  | run :: rest, c => !(c < run.first) && (run.contains c || inRuns rest c)

/-- The distance that a sorted table gives to a code point, if it lists it. -/
def shiftOf? : List (Run × Int) → Nat → Option Int
  | [], _ => none
  | (run, shift) :: rest, c =>
    if c < run.first then none
    else if run.contains c then some shift
    else shiftOf? rest c

/--
The image of a character under a case mapping: the sequence listed for it, else the character at
the listed distance, else the character itself.
-/
def mapCase (sequences : List (Nat × List Nat)) (shifts : List (Run × Int)) (c : Char) :
    List Char :=
  match sequences.lookup c.toNat with
  | some codes => codes.map Char.ofNat
  | none =>
    match shiftOf? shifts c.toNat with
    | some shift => [Char.ofNat (c.toNat + shift).toNat]
    | none => [c]

end SchemaLang.Text
