import Mathlib.Data.List.DropRight
import SchemaLang.Proofs.Json.Reread

/-!
# The grammar of JSON texts

What a JSON text is, is said here apart from the reader: a value is written with its parts, which
may have blanks on both sides, and with numbers and strings in any of their notations (`IsWritten`).
The reader reads exactly the texts of the grammar, each as the value that it is written for
(`read?_eq_some_iff`). So an array or an object has a text exactly if its parts have texts, one
level deeper (`hasText_array_iff`, `hasText_object_iff`).
-/

namespace SchemaLang.Json

open Decimal (isDigit)

/-! ## Numbers -/

/--
How a number can be written: a minus or nothing, digits without a leading zero, perhaps a point and
digits behind it, and perhaps an exponent.
-/
inductive IsNumber : Json → List Char → Prop
  | mk (negative : Bool) {whole fraction part : List Char} {exponent : Option Int} {value : Json}
      (hwhole : ∀ c ∈ whole, isDigit c = true) (hne : whole ≠ [])
      (hzero : whole.head? = some '0' → whole = ['0'])
      (hfraction : ∀ c ∈ fraction, isDigit c = true) (hexponent : IsExponent exponent part)
      (hvalue : ofParts? negative whole fraction exponent = some value) :
      IsNumber value ((if negative then ['-'] else []) ++
        (whole ++ (fractionText fraction ++ part)))

section Numbers

variable {value : Json} {cs text rest : List Char}

theorem eq_number_of_ofParts? {negative : Bool} {whole fraction : List Char}
    {exponent : Option Int} (h : ofParts? negative whole fraction exponent = some value) :
    (∃ n, value = .integer n) ∨ ∃ x, value = .float x := by
  unfold ofParts? at h
  dsimp only at h
  split at h
  case h_1 n _ => exact .inl ⟨n, (Option.some.inj h).symm⟩
  case h_2 =>
    split at h
    case isTrue => exact .inr ⟨_, (Option.some.inj h).symm⟩
    case isFalse => cases h

theorem IsNumber.eq_number (h : IsNumber value text) :
    (∃ n, value = .integer n) ∨ ∃ x, value = .float x := by
  cases h with
  | mk _ _ _ _ _ _ hvalue => exact eq_number_of_ofParts? hvalue

theorem IsNumber.exists_head (h : IsNumber value text) :
    ∃ c cs, text = c :: cs ∧ (c = '-' ∨ isDigit c = true) := by
  obtain ⟨negative, hwhole, hne, -⟩ := h
  cases negative with
  | true => exact ⟨_, _, rfl, .inl rfl⟩
  | false =>
    obtain ⟨c, digits, rfl⟩ := List.exists_cons_of_ne_nil hne
    exact ⟨c, _, rfl, .inr (hwhole c List.mem_cons_self)⟩

theorem IsNumber.number?_append (h : IsNumber value text) (hrest : StopsNumber rest) :
    number? (text ++ rest) = some (value, rest) := by
  obtain @⟨negative, whole, fraction, part, exponent, value, hwhole, hne, hzero, hfraction,
    hexponent, hvalue⟩ := h
  have hread : unsigned? negative (whole ++ (fractionText fraction ++ (part ++ rest))) =
      some (value, rest) := by
    rw [unsigned?_parts hwhole hne hzero hfraction hexponent hrest, hvalue]
    rfl
  simp only [List.append_assoc]
  cases negative with
  | true => exact (number?_minus _).trans hread
  | false =>
    obtain ⟨c, digits, rfl⟩ := List.exists_cons_of_ne_nil hne
    exact (number?_of_digit (hwhole c List.mem_cons_self) _).trans hread

theorem span_isDigit {digits : List Char} (h : cs.span isDigit = (digits, rest)) :
    cs = digits ++ rest ∧ ∀ c ∈ digits, isDigit c = true := by
  rw [List.span_eq_takeWhile_dropWhile, Prod.mk.injEq] at h
  obtain ⟨rfl, rfl⟩ := h
  exact ⟨List.takeWhile_append_dropWhile.symm, fun c hc ↦ List.mem_takeWhile_imp hc⟩

theorem eq_of_digitsAfter? {fraction : List Char}
    (h : digitsAfter? (· = '.') cs = some (fraction, rest)) :
    cs = fractionText fraction ++ rest ∧ ∀ c ∈ fraction, isDigit c = true := by
  unfold digitsAfter? at h
  split at h
  case h_2 =>
    cases h
    exact ⟨rfl, List.forall_mem_nil _⟩
  case h_1 c behind =>
    split at h
    case isFalse =>
      cases h
      exact ⟨rfl, List.forall_mem_nil _⟩
    case isTrue hpoint =>
      obtain rfl := of_decide_eq_true hpoint
      split at h
      case h_1 => cases h
      case h_2 digits others hne hspan =>
        cases h
        obtain ⟨rfl, hdigits⟩ := span_isDigit hspan
        obtain ⟨d, digits, rfl⟩ := List.exists_cons_of_ne_nil hne
        exact ⟨rfl, hdigits⟩

theorem exists_of_splitSign {negative : Bool} (h : Decimal.splitSign cs = (negative, rest)) :
    ∃ sign, cs = sign ++ rest ∧ (sign = [] ∨ sign = ['+'] ∨ sign = ['-']) ∧
      negative = decide (sign = ['-']) := by
  unfold Decimal.splitSign at h
  split at h
  all_goals cases h
  · exact ⟨['-'], rfl, .inr (.inr rfl), rfl⟩
  · exact ⟨['+'], rfl, .inr (.inl rfl), rfl⟩
  · exact ⟨[], rfl, .inl rfl, rfl⟩

theorem exists_of_exponent? {exponent : Option Int} (h : exponent? cs = some (exponent, rest)) :
    ∃ part, cs = part ++ rest ∧ IsExponent exponent part := by
  unfold exponent? at h
  split at h
  case h_2 =>
    cases h
    exact ⟨[], rfl, .missing⟩
  case h_1 mark behind =>
    split at h
    case isFalse =>
      cases h
      exact ⟨[], rfl, .missing⟩
    case isTrue hmark =>
      obtain ⟨negative, signless, hsplit⟩ :
        ∃ negative signless, Decimal.splitSign behind = (negative, signless) := ⟨_, _, rfl⟩
      obtain ⟨sign, rfl, hsign, rfl⟩ := exists_of_splitSign hsplit
      rw [hsplit] at h
      dsimp only at h
      split at h
      case h_1 => cases h
      case h_2 digits others hne hspan =>
        cases h
        obtain ⟨rfl, hdigits⟩ := span_isDigit hspan
        refine ⟨mark :: (sign ++ digits), by simp, ?_⟩
        simpa only [decide_eq_true_eq] using IsExponent.written hmark hsign hne hdigits

theorem exists_of_unsigned? {negative : Bool} (h : unsigned? negative cs = some (value, rest)) :
    ∃ text, cs = text ++ rest ∧ IsNumber value ((if negative then ['-'] else []) ++ text) := by
  unfold unsigned? at h
  obtain ⟨whole, behind, hspan⟩ : ∃ whole behind, cs.span isDigit = (whole, behind) := ⟨_, _, rfl⟩
  obtain ⟨rfl, hwhole⟩ := span_isDigit hspan
  rw [hspan] at h
  dsimp only at h
  split at h
  case isTrue => cases h
  case isFalse hleading =>
    rw [not_or, not_and, not_ne_iff] at hleading
    obtain ⟨⟨fraction, others⟩, hafter, hbehind⟩ := Option.bind_eq_some_iff.1 h
    obtain ⟨rfl, hfraction⟩ := eq_of_digitsAfter? hafter
    obtain ⟨⟨exponent, last⟩, hexponent, hvalue⟩ := Option.bind_eq_some_iff.1 hbehind
    obtain ⟨part, rfl, hpart⟩ := exists_of_exponent? hexponent
    obtain ⟨read, hread, heq⟩ := Option.bind_eq_some_iff.1 hvalue
    cases heq
    exact ⟨whole ++ (fractionText fraction ++ part), by simp,
      .mk negative hwhole hleading.1 hleading.2 hfraction hpart hread⟩

/-- What is read as a number is one way to write it. -/
theorem exists_of_number? (h : number? cs = some (value, rest)) :
    ∃ text, cs = text ++ rest ∧ IsNumber value text := by
  cases cs with
  | nil => cases h
  | cons c cs =>
    by_cases hminus : c = '-'
    · rw [hminus, number?_minus] at h
      obtain ⟨text, rfl, hnumber⟩ := exists_of_unsigned? h
      exact ⟨'-' :: text, by rw [hminus]; rfl, hnumber⟩
    · rw [number?_of_ne_minus hminus] at h
      exact exists_of_unsigned? h

end Numbers

/-! ## Values -/

/-- A value in a list or behind a colon, with the blanks around it. -/
structure WrittenItem where
  before : List Char
  value : Json
  text : List Char
  after : List Char
  isBlank_before : ∀ c ∈ before, isBlank c = true
  isBlank_after : ∀ c ∈ after, isBlank c = true

/-- The text of an item with its blanks. -/
def WrittenItem.whole (item : WrittenItem) : List Char := item.before ++ (item.text ++ item.after)

/-- A member of an object, with blanks around its key. -/
structure WrittenMember where
  before : List Char
  key : String
  keyText : List Char
  gap : List Char
  item : WrittenItem
  isBlank_before : ∀ c ∈ before, isBlank c = true
  isBody_key : Text.Quoted.IsBody key.toList keyText
  isBlank_gap : ∀ c ∈ gap, isBlank c = true

namespace WrittenMember

/-- The key and the value. -/
def pair (member : WrittenMember) : String × Json := (member.key, member.item.value)

/-- The text of a member with its blanks. -/
def whole (member : WrittenMember) : List Char :=
  member.before ++ '"' :: (member.keyText ++ '"' :: (member.gap ++ ':' :: member.item.whole))

end WrittenMember

/-- The texts of a value in which arrays and objects are nested up to a depth. -/
inductive IsWritten : Nat → Json → List Char → Prop
  | null (depth : Nat) : IsWritten depth .null "null".toList
  | bool (depth : Nat) (value : Bool) :
      IsWritten depth (.bool value) (if value then "true".toList else "false".toList)
  | integer {n : Int} {text : List Char} (depth : Nat) (h : IsNumber (.integer n) text) :
      IsWritten depth (.integer n) text
  | float {x : Binary64} {text : List Char} (depth : Nat) (h : IsNumber (.float x) text) :
      IsWritten depth (.float x) text
  | string {content : String} {body : List Char} (depth : Nat)
      (h : Text.Quoted.IsBody content.toList body) :
      IsWritten depth (.string content) ('"' :: (body ++ ['"']))
  | emptyArray {blanks : List Char} (depth : Nat) (h : ∀ c ∈ blanks, isBlank c = true) :
      IsWritten (depth + 1) (.array []) ('[' :: (blanks ++ [']']))
  | array {depth : Nat} {items : List WrittenItem} (hne : items ≠ [])
      (h : ∀ item ∈ items, IsWritten depth item.value item.text) :
      IsWritten (depth + 1) (.array (items.map WrittenItem.value))
        ('[' :: (joined (items.map WrittenItem.whole) ++ [']']))
  | emptyObject {blanks : List Char} (depth : Nat) (h : ∀ c ∈ blanks, isBlank c = true) :
      IsWritten (depth + 1) (.object []) ('\x7b' :: (blanks ++ ['\x7d']))
  | object {depth : Nat} {members : List WrittenMember} (hne : members ≠ [])
      (h : ∀ member ∈ members, IsWritten depth member.item.value member.item.text) :
      IsWritten (depth + 1) (.object (members.map WrittenMember.pair))
        ('\x7b' :: (joined (members.map WrittenMember.whole) ++ ['\x7d']))

theorem IsNumber.isWritten {value : Json} {text : List Char} (h : IsNumber value text)
    (depth : Nat) : IsWritten depth value text := by
  obtain ⟨n, rfl⟩ | ⟨x, rfl⟩ := h.eq_number
  · exact .integer depth h
  · exact .float depth h

/-- A text that holds one value and blanks around it. -/
def IsTextFor (text : String) (value : Json) : Prop :=
  ∃ item : WrittenItem, item.value = value ∧ text.toList = item.whole ∧
    IsWritten maxDepth item.value item.text

/-! ## What is written is read -/

section Written

variable {depth : Nat} {value : Json} {text : List Char}

/-- A text of a value starts with a character of its own. -/
theorem IsWritten.exists_head (h : IsWritten depth value text) :
    ∃ c cs, text = c :: cs ∧ startsValue c = true := by
  have hnumber {value : Json} {text : List Char} (h : IsNumber value text) :
      ∃ c cs, text = c :: cs ∧ startsValue c = true := by
    obtain ⟨c, cs, rfl, rfl | hdigit⟩ := h.exists_head
    · exact ⟨_, _, rfl, by decide⟩
    · exact ⟨_, _, rfl, by rw [startsValue, hdigit, Bool.or_true]⟩
  cases h with
  | null => exact ⟨_, _, rfl, by decide⟩
  | bool _ value => cases value <;> exact ⟨_, _, rfl, by decide⟩
  | integer _ h | float _ h => exact hnumber h
  | string | emptyArray | array | emptyObject | object => exact ⟨_, _, rfl, by decide⟩

theorem IsWritten.skipBlank_append (h : IsWritten depth value text) (rest : List Char) :
    skipBlank (text ++ rest) = text ++ rest := by
  obtain ⟨c, cs, rfl, hc⟩ := h.exists_head
  exact skipBlank_of_not_blank (not_isBlank_of_startsValue hc) _

theorem WrittenItem.skipBlank_append {item : WrittenItem}
    (h : IsWritten depth item.value item.text) (rest : List Char) :
    skipBlank (item.whole ++ rest) = item.text ++ (item.after ++ rest) := by
  rw [whole, List.append_assoc, Json.skipBlank_append item.isBlank_before, List.append_assoc,
    h.skipBlank_append]

theorem value?_emptyArray {blanks : List Char} (h : ∀ c ∈ blanks, isBlank c = true) (depth : Nat)
    (rest : List Char) :
    value? (depth + 1) ('[' :: (blanks ++ ']' :: rest)) = some (.array [], rest) := by
  rw [value?, skipBlank_append h]
  rfl

theorem value?_emptyObject {blanks : List Char} (h : ∀ c ∈ blanks, isBlank c = true) (depth : Nat)
    (rest : List Char) :
    value? (depth + 1) ('\x7b' :: (blanks ++ '\x7d' :: rest)) = some (.object [], rest) := by
  rw [value?, skipBlank_append h]
  rfl

/-- Items are read if each of their values is. -/
theorem value?_items {items : List WrittenItem} (hne : items ≠ [])
    (hwritten : ∀ item ∈ items, IsWritten depth item.value item.text)
    (hread : ∀ item ∈ items, ∀ rest, StopsNumber rest →
      value? depth (item.text ++ rest) = some (item.value, rest)) (rest : List Char) :
    value? (depth + 1) ('[' :: (joined (items.map WrittenItem.whole) ++ ']' :: rest)) =
      some (.array (items.map WrittenItem.value), rest) := by
  obtain ⟨first, others, rfl⟩ := List.exists_cons_of_ne_nil hne
  have hitem (item : WrittenItem) (hmem : item ∈ first :: others) (rest : List Char)
      (hrest : StopsNumber rest) : ∃ behind, skipBlank behind = skipBlank rest ∧
        value? depth (skipBlank (item.whole ++ rest)) =
          (some item.value).map fun value ↦ (value, behind) := by
    refine ⟨item.after ++ rest, skipBlank_append item.isBlank_after rest, ?_⟩
    rw [WrittenItem.skipBlank_append (hwritten item hmem)]
    exact hread item hmem _ (stopsNumber_blanks_append item.isBlank_after hrest)
  obtain ⟨c, text, hcons, hc⟩ := (hwritten first List.mem_cons_self).exists_head
  obtain ⟨cs, hbody⟩ := exists_skipBlank_joined first.isBlank_before
    (not_isBlank_of_startsValue hc) (text ++ first.after) (others.map WrittenItem.whole)
    (']' :: rest)
  have hwhole : first.before ++ c :: (text ++ first.after) = first.whole := by
    rw [WrittenItem.whole, hcons, List.cons_append]
  rw [hwhole, ← List.map_cons] at hbody
  have hitems := itemsUpTo?_joined (.inl rfl) (List.forall_mem_nil _) (first :: others) hitem hne
    (c :: cs) (by rw [skipBlank_of_not_blank (not_isBlank_of_startsValue hc), ← hbody]; rfl)
  have hvalues : (first :: others).mapM (fun item ↦ some item.value) =
      some ((first :: others).map WrittenItem.value) := List.mapM_pure
  rw [value?_array depth hbody (ne_bracket_of_startsValue hc), hitems, hvalues]
  rfl

/-- Members are read if each of their values is. -/
theorem value?_members {members : List WrittenMember} (hne : members ≠ [])
    (hwritten : ∀ member ∈ members, IsWritten depth member.item.value member.item.text)
    (hread : ∀ member ∈ members, ∀ rest, StopsNumber rest →
      value? depth (member.item.text ++ rest) = some (member.item.value, rest)) (rest : List Char) :
    value? (depth + 1) ('\x7b' :: (joined (members.map WrittenMember.whole) ++ '\x7d' :: rest)) =
      some (.object (members.map WrittenMember.pair), rest) := by
  obtain ⟨first, others, rfl⟩ := List.exists_cons_of_ne_nil hne
  have hmember (member : WrittenMember) (hmem : member ∈ first :: others) (rest : List Char)
      (hrest : StopsNumber rest) : ∃ behind, skipBlank behind = skipBlank rest ∧
        keyed? (value? depth) (skipBlank (member.whole ++ rest)) =
          (some member.pair).map fun member ↦ (member, behind) := by
    refine ⟨member.item.after ++ rest, skipBlank_append member.item.isBlank_after rest, ?_⟩
    have hitem : value? depth (skipBlank (member.item.whole ++ rest)) =
        (some member.item.value).map fun value ↦ (value, member.item.after ++ rest) := by
      rw [WrittenItem.skipBlank_append (hwritten member hmem)]
      exact hread member hmem _ (stopsNumber_blanks_append member.item.isBlank_after hrest)
    have hkey : Text.Quoted.decode? ((member.keyText ++ ['"']) ++
        (member.gap ++ ':' :: (member.item.whole ++ rest))) =
          some (member.key.toList, member.gap ++ ':' :: (member.item.whole ++ rest)) := by
      rw [List.append_assoc]
      exact member.isBody_key.decode?_append _
    have hwhole : member.whole ++ rest = member.before ++ '"' :: ((member.keyText ++ ['"']) ++
        (member.gap ++ ':' :: (member.item.whole ++ rest))) := by
      simp only [WrittenMember.whole, List.append_assoc, List.cons_append, List.nil_append]
    rw [hwhole]
    exact keyed?_member member.isBlank_before member.isBlank_gap hkey hitem
  obtain ⟨cs, hbody⟩ := exists_skipBlank_joined first.isBlank_before (c := '"') (by decide)
    (first.keyText ++ '"' :: (first.gap ++ ':' :: first.item.whole))
    (others.map WrittenMember.whole) ('\x7d' :: rest)
  have hwhole : first.before ++
      '"' :: (first.keyText ++ '"' :: (first.gap ++ ':' :: first.item.whole)) = first.whole := rfl
  rw [hwhole, ← List.map_cons] at hbody
  have hmembers := itemsUpTo?_joined (.inr rfl) (List.forall_mem_nil _) (first :: others) hmember
    hne ('"' :: cs) (by rw [skipBlank_of_not_blank (by decide), ← hbody]; rfl)
  have hpairs : (first :: others).mapM (fun member ↦ some member.pair) =
      some ((first :: others).map WrittenMember.pair) := List.mapM_pure
  rw [value?_object depth hbody (by decide), hmembers, hpairs]
  rfl

/-- A text of a value is read as the value, if nothing behind it continues a number. -/
theorem IsWritten.value?_append (h : IsWritten depth value text) {rest : List Char}
    (hrest : StopsNumber rest) : value? depth (text ++ rest) = some (value, rest) := by
  induction h generalizing rest with
  | null depth => exact value?_null depth rest
  | bool depth value => exact value?_bool depth value rest
  | integer depth h | float depth h =>
    obtain ⟨c, cs, rfl, hc⟩ := h.exists_head
    exact (value?_number hc depth _).trans (h.number?_append hrest)
  | string depth h =>
    rw [List.cons_append, List.append_assoc]
    exact value?_quoted (h.decode?_append rest) depth
  | emptyArray depth h =>
    rw [List.cons_append, List.append_assoc]
    exact value?_emptyArray h depth rest
  | array hne hwritten ih =>
    rw [List.cons_append, List.append_assoc]
    exact value?_items hne hwritten (fun item hitem rest hrest ↦ ih item hitem hrest) rest
  | emptyObject depth h =>
    rw [List.cons_append, List.append_assoc]
    exact value?_emptyObject h depth rest
  | object hne hwritten ih =>
    rw [List.cons_append, List.append_assoc]
    exact value?_members hne hwritten (fun member hmember rest hrest ↦ ih member hmember hrest) rest

end Written

/-! ## What is read is written -/

section Read

variable {depth : Nat} {value : Json} {cs rest : List Char}

theorem exists_blanks (cs : List Char) :
    ∃ blanks, (∀ c ∈ blanks, isBlank c = true) ∧ cs = blanks ++ skipBlank cs :=
  ⟨cs.takeWhile isBlank, fun _ hc ↦ List.mem_takeWhile_imp hc,
    List.takeWhile_append_dropWhile.symm⟩

theorem eq_append_of_behind? {word : List Char} (h : behind? word cs = some rest) :
    cs = word ++ rest := by
  fun_induction behind? word cs with
  | case1 => exact Option.some.inj h
  | case2 | case4 => cases h
  | case3 word c cs ih => rw [ih h, List.cons_append]

/--
Items that are read are written with commas between them, if each item is written. Blanks before
the first item belong to it.
-/
theorem exists_of_itemsUpTo? {α ω : Type} {close : Char}
    {item? : List Char → Option (α × List Char)} {whole : ω → List Char} {item : ω → α}
    {p : ω → Prop}
    (hitem : ∀ {before after cs rest value}, (∀ c ∈ before, isBlank c = true) →
      (∀ c ∈ after, isBlank c = true) → item? cs = some (value, after ++ rest) →
        ∃ written, item written = value ∧ before ++ cs = whole written ++ rest ∧ p written)
    {values : List α} (h : itemsUpTo? close item? cs = some (values, rest)) {full : List Char}
    (hfull : skipBlank full = skipBlank cs) :
    ∃ written : List ω, written ≠ [] ∧ written.map item = values ∧
      full = joined (written.map whole) ++ close :: rest ∧ ∀ one ∈ written, p one := by
  have hone {cs full behind next : List Char} {value : α} (hfull : skipBlank full = skipBlank cs)
      (hread : item? (skipBlank cs) = some (value, behind)) (hnext : skipBlank behind = next) :
      ∃ written, item written = value ∧ full = whole written ++ next ∧ p written := by
    obtain ⟨before, hbefore, hcs⟩ := exists_blanks full
    obtain ⟨after, hafter, hbehind⟩ := exists_blanks behind
    rw [hbehind, hnext] at hread
    rw [hcs, hfull]
    exact hitem hbefore hafter hread
  fun_induction itemsUpTo? close item? cs generalizing values rest full with
  | case1 | case2 | case5 => cases h
  | case3 cs value behind hread next hnext =>
    cases h
    obtain ⟨written, rfl, hcs, hp⟩ := hone hfull hread hnext
    exact ⟨[written], List.cons_ne_nil _ _, rfl, hcs, List.forall_mem_singleton.2 hp⟩
  | case4 cs value behind hread c next hnext hclose hcomma ih =>
    obtain ⟨answer, hanswer, heq⟩ := Option.map_eq_some_iff.1 h
    cases heq
    obtain ⟨others, hne, hvalues, hothers, hall⟩ := ih hanswer rfl
    obtain ⟨written, rfl, hcs, hp⟩ := hone hfull hread hnext
    refine ⟨written :: others, List.cons_ne_nil _ _, ?_, ?_, List.forall_mem_cons.2 ⟨hp, hall⟩⟩
    · rw [List.map_cons, hvalues]
    · obtain ⟨second, more, rfl⟩ := List.exists_cons_of_ne_nil hne
      rw [List.map_cons, List.map_cons, joined, ← List.map_cons, List.append_assoc,
        List.cons_append, ← hothers, hcs, hcomma.1]

/-- An item is written if its value is. -/
theorem exists_writtenItem
    (hread : ∀ {cs rest value}, value? depth cs = some (value, rest) →
      ∃ text, cs = text ++ rest ∧ IsWritten depth value text)
    {before after : List Char} (hbefore : ∀ c ∈ before, isBlank c = true)
    (hafter : ∀ c ∈ after, isBlank c = true) (h : value? depth cs = some (value, after ++ rest)) :
    ∃ item : WrittenItem, item.value = value ∧ before ++ cs = item.whole ++ rest ∧
      IsWritten depth item.value item.text := by
  obtain ⟨text, rfl, hwritten⟩ := hread h
  refine ⟨⟨before, value, text, after, hbefore, hafter⟩, rfl, ?_, hwritten⟩
  simp only [WrittenItem.whole, List.append_assoc]

theorem exists_writtenMember
    (hread : ∀ {cs rest value}, value? depth cs = some (value, rest) →
      ∃ text, cs = text ++ rest ∧ IsWritten depth value text)
    {before after : List Char} {pair : String × Json} (hbefore : ∀ c ∈ before, isBlank c = true)
    (hafter : ∀ c ∈ after, isBlank c = true)
    (h : keyed? (value? depth) cs = some (pair, after ++ rest)) :
    ∃ member : WrittenMember, member.pair = pair ∧ before ++ cs = member.whole ++ rest ∧
      IsWritten depth member.item.value member.item.text := by
  unfold keyed? at h
  split at h
  case h_2 => cases h
  case h_1 =>
    obtain ⟨⟨key, behind⟩, hkey, hcolon⟩ := Option.bind_eq_some_iff.1 h
    obtain ⟨body, rfl, hbody⟩ := Text.Quoted.exists_of_decode? hkey
    obtain ⟨others, hothers, hvalue⟩ := Option.bind_eq_some_iff.1 hcolon
    obtain ⟨⟨value, last⟩, hitem, heq⟩ := Option.bind_eq_some_iff.1 hvalue
    obtain ⟨gap, hgap, hgapped⟩ := exists_blanks behind
    obtain ⟨front, hfront, hfronted⟩ := exists_blanks others
    cases heq
    obtain ⟨item, rfl, hwhole, hwritten⟩ := exists_writtenItem hread hfront hafter hitem
    have hbody' : Text.Quoted.IsBody (String.ofList key).toList body := by
      rwa [String.toList_ofList]
    refine ⟨⟨before, String.ofList key, body, gap, item, hbefore, hbody', hgap⟩, rfl, ?_, hwritten⟩
    rw [hgapped, eq_append_of_behind? hothers, hfronted, hwhole]
    simp only [WrittenMember.whole, List.append_assoc, List.cons_append, List.nil_append]

/-- What is read at a depth is written if what is read one level deeper is. -/
theorem exists_of_value?_of_deeper
    (hdeeper : ∀ smaller, depth = smaller + 1 → ∀ {cs rest value},
      value? smaller cs = some (value, rest) → ∃ text, cs = text ++ rest ∧
        IsWritten smaller value text) (h : value? depth cs = some (value, rest)) :
    ∃ text, cs = text ++ rest ∧ IsWritten depth value text := by
  fun_induction value? depth cs with
  | case1 depth behind =>
    obtain ⟨⟨text, last⟩, htext, heq⟩ := Option.map_eq_some_iff.1 h
    cases heq
    obtain ⟨body, rfl, hbody⟩ := Text.Quoted.exists_of_decode? htext
    refine ⟨'"' :: (body ++ ['"']), by simp, .string depth ?_⟩
    rwa [String.toList_ofList]
  | case2 | case3 => cases h
  | case4 smaller behind last hlast =>
    cases h
    obtain ⟨blanks, hblanks, heq⟩ := exists_blanks behind
    refine ⟨'[' :: (blanks ++ [']']), ?_, .emptyArray smaller hblanks⟩
    rw [heq, hlast]
    simp
  | case5 smaller behind =>
    obtain ⟨⟨values, last⟩, hvalues, heq⟩ := Option.map_eq_some_iff.1 h
    cases heq
    obtain ⟨items, hne, rfl, hbehind, hwritten⟩ := exists_of_itemsUpTo?
      (exists_writtenItem (hdeeper smaller rfl)) hvalues (List.dropWhile_idempotent _ _).symm
    exact ⟨_, by rw [hbehind]; simp, .array hne hwritten⟩
  | case6 smaller behind last hlast =>
    cases h
    obtain ⟨blanks, hblanks, heq⟩ := exists_blanks behind
    refine ⟨'\x7b' :: (blanks ++ ['\x7d']), ?_, .emptyObject smaller hblanks⟩
    rw [heq, hlast]
    simp
  | case7 smaller behind =>
    obtain ⟨⟨pairs, last⟩, hpairs, heq⟩ := Option.map_eq_some_iff.1 h
    cases heq
    obtain ⟨members, hne, rfl, hbehind, hwritten⟩ := exists_of_itemsUpTo?
      (exists_writtenMember (hdeeper smaller rfl)) hpairs (List.dropWhile_idempotent _ _).symm
    exact ⟨_, by rw [hbehind]; simp, .object hne hwritten⟩
  | case8 =>
    obtain ⟨behind, hbehind, heq⟩ := Option.map_eq_some_iff.1 h
    cases heq
    exact ⟨"null".toList, by rw [eq_append_of_behind? hbehind]; rfl, .null _⟩
  | case9 =>
    obtain ⟨behind, hbehind, heq⟩ := Option.map_eq_some_iff.1 h
    cases heq
    exact ⟨"true".toList, by rw [eq_append_of_behind? hbehind]; rfl, .bool _ true⟩
  | case10 =>
    obtain ⟨behind, hbehind, heq⟩ := Option.map_eq_some_iff.1 h
    cases heq
    exact ⟨"false".toList, by rw [eq_append_of_behind? hbehind]; rfl, .bool _ false⟩
  | case11 =>
    obtain ⟨text, rfl, hnumber⟩ := exists_of_number? h
    exact ⟨text, rfl, hnumber.isWritten _⟩

theorem exists_of_value? (h : value? depth cs = some (value, rest)) :
    ∃ text, cs = text ++ rest ∧ IsWritten depth value text := by
  induction depth generalizing cs rest value with
  | zero => exact exists_of_value?_of_deeper (fun smaller hdepth ↦ by cases hdepth) h
  | succ depth ih =>
    apply exists_of_value?_of_deeper _ h
    rintro smaller ⟨⟩
    exact ih

end Read

/-! ## Texts -/

/-- The texts of a value are the texts that are read as the value. -/
theorem read?_eq_some_iff {text : String} {value : Json} :
    read? text = some value ↔ IsTextFor text value := by
  constructor
  · intro h
    unfold read? at h
    split at h
    case h_2 => cases h
    case h_1 read rest hread =>
      split at h
      case isFalse => cases h
      case isTrue hend =>
        cases h
        obtain ⟨before, hbefore, htext⟩ := exists_blanks text.toList
        obtain ⟨after, hafter, hrest⟩ := exists_blanks rest
        rw [hend] at hrest
        rw [hrest] at hread
        obtain ⟨item, hvalue, hwhole, hwritten⟩ :=
          exists_writtenItem exists_of_value? hbefore hafter hread
        rw [List.append_nil] at hwhole
        exact ⟨item, hvalue, htext.trans hwhole, hwritten⟩
  · rintro ⟨item, rfl, htext, hwritten⟩
    have hafter : StopsNumber item.after := by
      have hstops := stopsNumber_blanks_append item.isBlank_after (Text.stopsRun_nil _)
      rwa [List.append_nil] at hstops
    have hskip := WrittenItem.skipBlank_append hwritten []
    rw [List.append_nil, List.append_nil] at hskip
    have hend : skipBlank item.after = [] := by
      rw [← List.append_nil item.after, skipBlank_append item.isBlank_after]
      rfl
    rw [read?, htext, hskip, hwritten.value?_append hafter]
    exact if_pos hend

/-- The compact text of a value that reads back as it is. -/
theorem isTextFor_of_compact {text : String} {value : Json} (htext : value.compact = text)
    (hreread : reread? maxDepth value = some value) : IsTextFor text value := by
  rw [← read?_eq_some_iff, ← htext, read?_compact, hreread]

/-- A value that has a text of its own, with arrays and objects nested up to a depth. -/
def HasText (depth : Nat) (value : Json) : Prop := ∃ text, IsWritten depth value text

section HasText

variable {depth : Nat}

theorem exists_written {α ω : Type} {item : ω → α} {p : ω → Prop} {values : List α}
    (h : ∀ value ∈ values, ∃ written, item written = value ∧ p written) :
    ∃ written : List ω, written.map item = values ∧ ∀ one ∈ written, p one := by
  induction values with
  | nil => exact ⟨[], rfl, List.forall_mem_nil _⟩
  | cons value values ih =>
    obtain ⟨⟨first, rfl, hfirst⟩, hrest⟩ := List.forall_mem_cons.1 h
    obtain ⟨others, rfl, hothers⟩ := ih hrest
    exact ⟨first :: others, rfl, List.forall_mem_cons.2 ⟨hfirst, hothers⟩⟩

/-- An array has a text if its items have one, one level deeper. -/
theorem hasText_array_iff {items : List Json} :
    HasText depth (.array items) ↔
      ∃ deeper, depth = deeper + 1 ∧ ∀ item ∈ items, HasText deeper item := by
  constructor
  · rintro ⟨text, h⟩
    cases h with
    | emptyArray deeper h => exact ⟨deeper, rfl, List.forall_mem_nil _⟩
    | @array deeper written hne hwritten =>
      exact ⟨deeper, rfl, List.forall_mem_map.2 fun item hitem ↦ ⟨item.text, hwritten item hitem⟩⟩
  · rintro ⟨deeper, rfl, h⟩
    have hitem (item : Json) (hmem : item ∈ items) : ∃ written : WrittenItem,
        written.value = item ∧ IsWritten deeper written.value written.text := by
      obtain ⟨text, htext⟩ := h item hmem
      exact ⟨⟨[], item, text, [], List.forall_mem_nil _, List.forall_mem_nil _⟩, rfl, htext⟩
    obtain ⟨written, rfl, hwritten⟩ := exists_written hitem
    cases written with
    | nil => exact ⟨_, .emptyArray deeper (List.forall_mem_nil _)⟩
    | cons first others => exact ⟨_, .array (List.cons_ne_nil _ _) hwritten⟩

/-- An object has a text if the values of its members have one, one level deeper. -/
theorem hasText_object_iff {members : List (String × Json)} :
    HasText depth (.object members) ↔
      ∃ deeper, depth = deeper + 1 ∧ ∀ member ∈ members, HasText deeper member.2 := by
  constructor
  · rintro ⟨text, h⟩
    cases h with
    | emptyObject deeper h => exact ⟨deeper, rfl, List.forall_mem_nil _⟩
    | @object deeper written hne hwritten =>
      exact ⟨deeper, rfl, List.forall_mem_map.2 fun member hmember ↦
        ⟨member.item.text, hwritten member hmember⟩⟩
  · rintro ⟨deeper, rfl, h⟩
    have hmember (member : String × Json) (hmem : member ∈ members) : ∃ written : WrittenMember,
        written.pair = member ∧ IsWritten deeper written.item.value written.item.text := by
      obtain ⟨text, htext⟩ := h member hmem
      obtain ⟨body, hbody⟩ := Text.Quoted.exists_isBody member.1.toList
      have hnil : ∀ c ∈ ([] : List Char), isBlank c = true := List.forall_mem_nil _
      exact ⟨⟨[], member.1, body, [], ⟨[], member.2, text, [], hnil, hnil⟩, hnil, hbody, hnil⟩,
        rfl, htext⟩
    obtain ⟨written, rfl, hwritten⟩ := exists_written hmember
    cases written with
    | nil => exact ⟨_, .emptyObject deeper (List.forall_mem_nil _)⟩
    | cons first others => exact ⟨_, .object (List.cons_ne_nil _ _) hwritten⟩

/-- The values that have a text are those that can stand alone in a text. -/
theorem exists_isTextFor_iff {value : Json} :
    (∃ text, IsTextFor text value) ↔ HasText maxDepth value := by
  constructor
  · rintro ⟨text, item, rfl, -, hwritten⟩
    exact ⟨item.text, hwritten⟩
  · rintro ⟨text, htext⟩
    have hnil : ∀ c ∈ ([] : List Char), isBlank c = true := List.forall_mem_nil _
    refine ⟨String.ofList text, ⟨[], value, text, [], hnil, hnil⟩, rfl, ?_, htext⟩
    rw [String.toList_ofList, WrittenItem.whole, List.nil_append, List.append_nil]

end HasText


end SchemaLang.Json
