import SchemaLang.Proofs.Json.Grammar

/-!
# Values that texts have

Whatever is read from a text has numbers in range: its integers fit into 64 bits, signed or
unsigned, and its other numbers are finite (`readable_of_read?`).
-/

namespace SchemaLang.Json

/-- All numbers of a value are in the range of the reader. -/
inductive Readable : Json → Prop
  | null : Readable .null
  | bool (value : Bool) : Readable (.bool value)
  | integer {n : Int} (hlow : -2 ^ 63 ≤ n) (hhigh : n < 2 ^ 64) : Readable (.integer n)
  | float {x : Binary64} (h : x.isFinite = true) : Readable (.float x)
  | string (text : String) : Readable (.string text)
  | array {items : List Json} (h : ∀ item ∈ items, Readable item) : Readable (.array items)
  | object {members : List (String × Json)} (h : ∀ member ∈ members, Readable member.2) :
      Readable (.object members)

theorem Readable.items {items : List Json} (h : Readable (.array items)) :
    ∀ item ∈ items, Readable item := by
  cases h with
  | array h => exact h

theorem Readable.members {members : List (String × Json)} (h : Readable (.object members)) :
    ∀ member ∈ members, Readable member.2 := by
  cases h with
  | object h => exact h

/-! ## Numbers -/

theorem integer?_range {negative : Bool} {whole : List Char} {n : Int}
    (h : integer? negative whole = some n) : -2 ^ 63 ≤ n ∧ n < 2 ^ 64 := by
  unfold integer? at h
  dsimp only at h
  split at h
  · split at h
    · next hsmall =>
      have hn := Option.some.inj h
      omega
    · cases h
  · split at h
    · next hsmall =>
      have hn := Option.some.inj h
      omega
    · cases h

theorem readable_of_ofParts? {negative : Bool} {whole fraction : List Char} {exponent : Option Int}
    {value : Json} (h : ofParts? negative whole fraction exponent = some value) :
    Readable value := by
  unfold ofParts? at h
  dsimp only at h
  split at h
  case h_1 n hkept =>
    obtain rfl := Option.some.inj h
    split at hkept
    · obtain ⟨hlow, hhigh⟩ := integer?_range hkept
      exact .integer hlow hhigh
    · cases hkept
  case h_2 =>
    split at h
    case isTrue hfinite =>
      obtain rfl := Option.some.inj h
      exact .float hfinite
    case isFalse => cases h

theorem IsNumber.readable {value : Json} {text : List Char} (h : IsNumber value text) :
    Readable value := by
  cases h with
  | mk _ _ _ _ _ _ hvalue => exact readable_of_ofParts? hvalue

/-! ## Values with parts -/

/-- Whatever is written has numbers in range. -/
theorem IsWritten.readable {depth : Nat} {value : Json} {text : List Char}
    (h : IsWritten depth value text) : Readable value := by
  induction h with
  | null => exact .null
  | bool => exact .bool _
  | integer _ h | float _ h => exact h.readable
  | string => exact .string _
  | emptyArray => exact .array (List.forall_mem_nil _)
  | array _ _ ih => exact .array (List.forall_mem_map.2 ih)
  | emptyObject => exact .object (List.forall_mem_nil _)
  | object _ _ ih => exact .object (List.forall_mem_map.2 ih)

/-- The value of a text has numbers in range. -/
theorem readable_of_read? {text : String} {value : Json} (h : read? text = some value) :
    Readable value := by
  obtain ⟨item, rfl, -, hwritten⟩ := read?_eq_some_iff.1 h
  exact hwritten.readable

end SchemaLang.Json
