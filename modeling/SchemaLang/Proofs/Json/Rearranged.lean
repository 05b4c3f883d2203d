import Mathlib.Data.List.Forall2
import Mathlib.Data.List.Perm.Basic
import SchemaLang.Proofs.Json.Grammar
import SchemaLang.Proofs.Json.Record

/-!
# Rearranged records

What can be done to the objects of a value without a change of the record that is read from it: the
members of every object can stand in another order (`Reordered`), and an object that holds a record
can have more members, under keys that are not among those of the record (`RecordRearranged`). The
values of such a record are then the values of the given one, each rearranged in its turn
(`record?_rearranged`), and a rearranged value has a text if the given one has (`hasText`). A key of
the record that stands twice leaves no record (`RecordRepeats`).
-/

namespace SchemaLang.Json

/-- The same value, with the members of objects in another order. -/
inductive Reordered : Json → Json → Prop
  | same (value : Json) : Reordered value value
  | array {items others : List Json} (h : List.Forall₂ Reordered items others) :
      Reordered (.array items) (.array others)
  | object {members others : List (String × Json)} {values : List Json}
      (hvalues : List.Forall₂ Reordered (members.map Prod.snd) values)
      (hperm : ((members.map Prod.fst).zip values).Perm others) :
      Reordered (.object members) (.object others)

/--
The same record, with related values under its keys. The members of an object may stand in another
order and with more members, under other keys and of values that have a text there.
-/
inductive RecordRearranged (keys : List String) (depth : Nat)
    (related : String → Json → Json → Prop) : Json → Json → Prop
  | object {members kept added others : List (String × Json)}
      (hkept : List.Forall₂
        (fun member other ↦ member.1 = other.1 ∧ related member.1 member.2 other.2) members kept)
      (hadded : ∀ member ∈ added, member.1 ∉ keys ∧ HasText (depth - 1) member.2)
      (hperm : (kept ++ added).Perm others) :
      RecordRearranged keys depth related (.object members) (.object others)
  | array {items others : List Json}
      (h : ∀ i, Option.Rel (related (keys.getD i "")) items[i]? others[i]?) :
      RecordRearranged keys depth related (.array items) (.array others)

/-- Lists of related values. -/
inductive ListRearranged (related : Json → Json → Prop) : Json → Json → Prop
  | array {items others : List Json} (h : List.Forall₂ related items others) :
      ListRearranged related (.array items) (.array others)

/-- Values that are equal, or both arrays or objects. -/
inductive Alike : Json → Json → Prop
  | same (value : Json) : Alike value value
  | array (items others : List Json) : Alike (.array items) (.array others)
  | object (members others : List (String × Json)) : Alike (.object members) (.object others)

/-- The relation of parts under some keys, and the same values reordered under all others. -/
def underKeys (keys : List String) (part : Json → Json → Prop) (key : String) :
    Json → Json → Prop :=
  if key ∈ keys then part else Reordered

variable {keys : List String} {depth : Nat} {related : String → Json → Json → Prop}
  {value other : Json}

/-! ## Texts -/

theorem Reordered.hasText (h : Reordered value other) (hvalue : HasText depth value) :
    HasText depth other := by
  induction depth using Nat.strong_induction_on generalizing value other with
  | _ depth ih =>
  cases h with
  | same => exact hvalue
  | array hitems =>
    obtain ⟨deeper, rfl, hdeeper⟩ := hasText_array_iff.1 hvalue
    refine hasText_array_iff.2 ⟨deeper, rfl, forall_of_forall₂ hitems ?_ hdeeper⟩
    exact fun item other hrelated hitem ↦ ih deeper (Nat.lt_succ_self _) hrelated hitem
  | object hvalues hperm =>
    obtain ⟨deeper, rfl, hdeeper⟩ := hasText_object_iff.1 hvalue
    have hothers := forall_of_forall₂ hvalues
      (fun value other hrelated hvalue ↦ ih deeper (Nat.lt_succ_self _) hrelated hvalue)
      (List.forall_mem_map.2 hdeeper)
    refine hasText_object_iff.2 ⟨deeper, rfl, fun member hmember ↦ hothers member.2 ?_⟩
    exact (List.of_mem_zip (hperm.mem_iff.2 hmember)).2

theorem RecordRearranged.hasText (h : RecordRearranged keys depth related value other)
    (hrelated : ∀ key value other, related key value other → HasText (depth - 1) value →
      HasText (depth - 1) other) (hvalue : HasText depth value) : HasText depth other := by
  cases h with
  | object hkept hadded hperm =>
    obtain ⟨deeper, rfl, hdeeper⟩ := hasText_object_iff.1 hvalue
    refine hasText_object_iff.2 ⟨deeper, rfl, fun member hmember ↦ ?_⟩
    have hothers := forall_of_forall₂ (q := fun member ↦ HasText deeper member.2) hkept
      (fun member other hmember ↦ hrelated _ _ _ hmember.2) hdeeper
    rcases List.mem_append.1 (hperm.mem_iff.2 hmember) with hmem | hmem
    · exact hothers member hmem
    · exact (hadded member hmem).2
  | @array items others hitems =>
    obtain ⟨deeper, rfl, hdeeper⟩ := hasText_array_iff.1 hvalue
    refine hasText_array_iff.2 ⟨deeper, rfl, fun other hother ↦ ?_⟩
    obtain ⟨i, hi⟩ := List.mem_iff_getElem?.1 hother
    have hrel := hitems i
    rw [hi] at hrel
    cases hitem : items[i]? with
    | none =>
      rw [hitem] at hrel
      cases hrel
    | some item =>
      rw [hitem] at hrel
      cases hrel with
      | some hrel => exact hrelated _ _ _ hrel (hdeeper item (List.mem_of_getElem? hitem))

theorem ListRearranged.hasText {related : Json → Json → Prop}
    (h : ListRearranged related value other)
    (hrelated : ∀ value other, related value other → HasText (depth - 1) value →
      HasText (depth - 1) other) (hvalue : HasText depth value) : HasText depth other := by
  cases h with
  | array hitems =>
    obtain ⟨deeper, rfl, hdeeper⟩ := hasText_array_iff.1 hvalue
    exact hasText_array_iff.2 ⟨deeper, rfl, forall_of_forall₂ hitems hrelated hdeeper⟩

/-! ## Kinds of values -/

theorem Alike.symm (h : Alike value other) : Alike other value := by
  cases h with
  | same => exact .same _
  | array => exact .array _ _
  | object => exact .object _ _

theorem Reordered.alike (h : Reordered value other) : Alike value other := by
  cases h with
  | same => exact .same _
  | array => exact .array _ _
  | object => exact .object _ _

theorem RecordRearranged.alike (h : RecordRearranged keys depth related value other) :
    Alike value other := by
  cases h with
  | object => exact .object _ _
  | array => exact .array _ _

theorem RecordRearranged.imp {looser : String → Json → Json → Prop}
    (h : RecordRearranged keys depth related value other)
    (himp : ∀ key value other, related key value other → looser key value other) :
    RecordRearranged keys depth looser value other := by
  cases h with
  | object hkept hadded hperm =>
    exact .object (hkept.imp fun member other hmember ↦ ⟨hmember.1, himp _ _ _ hmember.2⟩) hadded
      hperm
  | array hitems =>
    exact .array fun i ↦ rel_imp (hitems i) (himp _)

theorem forall₂_zip_of_forall₂ {R : Json → Json → Prop} {members : List (String × Json)}
    {values : List Json} (h : List.Forall₂ R (members.map Prod.snd) values) :
    List.Forall₂ (fun member other ↦ member.1 = other.1 ∧ R member.2 other.2) members
      ((members.map Prod.fst).zip values) := by
  induction members generalizing values with
  | nil => exact .nil
  | cons member members ih =>
    cases h with
    | cons hvalue hvalues => exact .cons ⟨rfl, hvalue⟩ (ih hvalues)

/-- A reordered array or object is a rearranged record of any keys. -/
theorem Reordered.eq_or_rearranged (h : Reordered value other) (keys : List String) (depth : Nat) :
    value = other ∨ RecordRearranged keys depth (fun _ ↦ Reordered) value other := by
  cases h with
  | same => exact .inl rfl
  | array hitems =>
    exact .inr (.array (rel_getElem?_of_forall₂ hitems))
  | @object members others values hvalues hperm =>
    rw [← List.append_nil ((members.map Prod.fst).zip values)] at hperm
    exact .inr (.object (forall₂_zip_of_forall₂ hvalues) (List.forall_mem_nil _) hperm)

theorem part_of_underKeys {part : Json → Json → Prop} {key : String} (hkey : key ∈ keys)
    (h : underKeys keys part key value other) : part value other := by
  rwa [underKeys, if_pos hkey] at h

theorem reordered_of_underKeys {part : Json → Json → Prop} {key : String} (hkey : key ∉ keys)
    (h : underKeys keys part key value other) : Reordered value other := by
  rwa [underKeys, if_neg hkey] at h

theorem hasText_of_underKeys {part : Json → Json → Prop}
    (hpart : ∀ value other, part value other → HasText depth value → HasText depth other)
    (key : String) (value other : Json) (h : underKeys keys part key value other)
    (hvalue : HasText depth value) : HasText depth other := by
  by_cases hkey : key ∈ keys
  · exact hpart value other (part_of_underKeys hkey h) hvalue
  · exact (reordered_of_underKeys hkey h).hasText hvalue

/-! ## Records -/

theorem valuesOf_perm {members others : List (String × Json)} (h : members.Perm others)
    (key : String) : (valuesOf key members).Perm (valuesOf key others) :=
  (h.filter _).map _

theorem valuesOf_filter_of_ne {key other : String} (h : key ≠ other)
    (members : List (String × Json)) :
    valuesOf key (members.filter fun member ↦ member.1 ≠ other) = valuesOf key members := by
  rw [valuesOf, valuesOf, List.filter_filter]
  congr 1
  apply List.filter_congr
  intro member _
  by_cases hkey : member.1 = key <;> simp [hkey, h]

theorem forall₂_valuesOf {members kept : List (String × Json)}
    (h : List.Forall₂ (fun member other ↦ member.1 = other.1 ∧
      related member.1 member.2 other.2) members kept) (key : String) :
    List.Forall₂ (related key) (valuesOf key members) (valuesOf key kept) := by
  induction h with
  | nil => exact .nil
  | @cons member other members kept hmember _ ih =>
    by_cases hkey : member.1 = key
    · have hother : other.1 = key := hmember.1 ▸ hkey
      simp only [valuesOf, List.filter_cons, hkey, hother, decide_true, if_true, List.map_cons]
      exact .cons (hkey ▸ hmember.2) ih
    · have hother : other.1 ≠ key := hmember.1 ▸ hkey
      simpa only [valuesOf, List.filter_cons, hkey, hother, decide_false, Bool.false_eq_true,
        if_false] using ih

theorem single?_eq_none {members : List (String × Json)} {key : String}
    (h : 1 < (valuesOf key members).length) : single? members key = none := by
  unfold single?
  split
  case h_1 hvalues => simp [hvalues] at h
  case h_2 hvalues => simp [hvalues] at h
  case h_3 => rfl

theorem single?_rearranged {members others : List (String × Json)} {values : List Json}
    {key : String} {related : Json → Json → Prop}
    (h : List.Forall₂ related (valuesOf key members) values)
    (hperm : values.Perm (valuesOf key others)) :
    Option.Rel (Option.Rel related) (single? members key) (single? others key) := by
  have hlength : (valuesOf key members).length = (valuesOf key others).length :=
    h.length_eq.trans hperm.length_eq
  by_cases hone : 1 < (valuesOf key members).length
  · rw [single?_eq_none hone, single?_eq_none (hlength ▸ hone)]
    exact .none
  · unfold single?
    generalize valuesOf key members = given at *
    generalize valuesOf key others = found at *
    cases h with
    | nil =>
      rw [hperm.symm.eq_nil]
      exact .some .none
    | cons hvalue hrest =>
      cases hrest with
      | nil =>
        rw [List.perm_singleton.1 hperm.symm]
        exact .some (.some hvalue)
      | cons => simp at hone

/-- A list of items is a record if there is a key for each item. -/
theorem record?_array {items : List Json} (h : items.length ≤ keys.length) :
    record? keys (.array items) = some ((List.range keys.length).map fun i ↦ items[i]?) := by
  rw [record?, if_pos h, Option.some.injEq]
  apply List.ext_getElem?
  intro i
  grind

/-- A rearranged record has the same values, rearranged. -/
theorem record?_rearranged (h : RecordRearranged keys depth related value other) :
    Option.Rel (fun values others ↦ List.Forall₂
      (fun entry other ↦ Option.Rel (related entry.1) entry.2 other) (keys.zip values) others)
      (value.record? keys) (other.record? keys) := by
  cases h with
  | @object members kept added others hkept hadded hperm =>
    refine rel_mapM fun key hkey ↦ single?_rearranged (forall₂_valuesOf hkept key) ?_
    have hnone : valuesOf key added = [] := by
      apply valuesOf_eq_nil
      rintro member hmember rfl
      exact (hadded member hmember).1 hkey
    have hvalues := valuesOf_perm hperm key
    rwa [valuesOf_append, hnone, List.append_nil] at hvalues
  | @array items others hitems =>
    have hlength := length_eq_of_rel hitems
    by_cases hle : items.length ≤ keys.length
    · rw [record?_array hle, record?_array (hlength ▸ hle)]
      refine .some (List.forall₂_iff_get.2 ⟨by simp, fun i hi hi' ↦ ?_⟩)
      have hi : i < keys.length := by simpa using hi'
      simpa [hi] using hitems i
    · rw [record?, record?, if_neg hle, if_neg (hlength ▸ hle)]
      exact .none

theorem length_of_record? {values : List (Option Json)} (h : value.record? keys = some values) :
    keys.length = values.length := by
  cases value with
  | null | bool | integer | float | string => cases h
  | object => exact length_of_mapM_eq_some h
  | array items =>
    by_cases hle : items.length ≤ keys.length
    · rw [record?_array hle] at h
      cases h
      simp
    · rw [record?, if_neg hle] at h
      cases h

theorem RecordRearranged.record?_alike
    (h : RecordRearranged keys depth (fun _ ↦ Alike) value other) :
    Option.Rel (List.Forall₂ (Option.Rel Alike)) (value.record? keys) (other.record? keys) := by
  have hrecord := record?_rearranged h
  have hlength (values : List (Option Json)) (h : value.record? keys = some values) :=
    length_of_record? h
  generalize value.record? keys = values at hrecord hlength ⊢
  generalize other.record? keys = others at hrecord ⊢
  cases hrecord with
  | none => exact .none
  | @some values others hvalues =>
    have hsnd : (keys.zip values).map Prod.snd = values :=
      List.map_snd_zip (hlength values rfl).ge
    rw [← hsnd]
    exact .some (List.forall₂_map_left_iff.2 hvalues)

/-! ## Keys that stand twice -/

/--
A record in which a key stands twice, or in which there is a given kind of value under one of the
keys.
-/
inductive RecordRepeats (keys : List String) (part : String → Json → Prop) : Json → Prop
  | key {members : List (String × Json)} {key : String} (hkey : key ∈ keys)
      (h : 1 < (valuesOf key members).length) : RecordRepeats keys part (.object members)
  | member {members : List (String × Json)} {key : String} {value : Json} (hkey : key ∈ keys)
      (hmember : (key, value) ∈ members) (h : part key value) :
      RecordRepeats keys part (.object members)
  | item {items : List Json} {i : Nat} {key : String} {value : Json} (hkey : keys[i]? = some key)
      (hitem : items[i]? = some value) (h : part key value) : RecordRepeats keys part (.array items)

theorem single?_eq_of_mem {members : List (String × Json)} {key : String} {value : Json}
    (h : (key, value) ∈ members) {found : Option Json} (hfound : single? members key = some found) :
    found = some value := by
  have hvalue : value ∈ valuesOf key members :=
    List.mem_map.2 ⟨(key, value), List.mem_filter.2 ⟨h, decide_eq_true rfl⟩, rfl⟩
  unfold single? at hfound
  split at hfound
  case h_1 hvalues =>
    rw [hvalues] at hvalue
    cases hvalue
  case h_2 only hvalues =>
    rw [hvalues, List.mem_singleton] at hvalue
    cases hfound
    rw [hvalue]
  case h_3 => cases hfound

/-- If a record is read in spite of what stands in it, it is read from one of its parts. -/
theorem exists_part_of_record? {part : String → Json → Prop} (h : RecordRepeats keys part value)
    {values : List (Option Json)} (hvalues : value.record? keys = some values) :
    ∃ key found, (key, some found) ∈ keys.zip values ∧ part key found := by
  cases h with
  | key hkey hrepeated =>
    obtain ⟨found, hfound, -⟩ := mem_zip_of_mapM hvalues hkey
    rw [single?_eq_none hrepeated] at hfound
    cases hfound
  | @member members key only hkey hmember hpart =>
    obtain ⟨found, hfound, hzip⟩ := mem_zip_of_mapM hvalues hkey
    rw [single?_eq_of_mem hmember hfound] at hzip
    exact ⟨key, only, hzip, hpart⟩
  | @item items i key found hkey hitem hpart =>
    have hlength : items.length ≤ keys.length := by
      by_contra hlong
      rw [record?, if_neg hlong] at hvalues
      cases hvalues
    rw [record?_array hlength] at hvalues
    cases hvalues
    refine ⟨key, found, List.mem_iff_getElem?.2 ⟨i, List.getElem?_zip_eq_some.2 ⟨hkey, ?_⟩⟩, hpart⟩
    have hi := (List.getElem?_eq_some_iff.1 hkey).1
    simp [hi, hitem]

/-- The values under some of the keys of a record. -/
def partsUnder (partKeys : List String) (entries : List (String × Option Json)) : List Json :=
  entries.filterMap fun entry ↦ if entry.1 ∈ partKeys then entry.2 else none

theorem exists_mem_partsUnder {partKeys : List String} {part : Json → Prop}
    (h : RecordRepeats keys (fun key value ↦ key ∈ partKeys ∧ part value) value)
    {values : List (Option Json)} (hvalues : value.record? keys = some values) :
    ∃ found ∈ partsUnder partKeys (keys.zip values), part found := by
  obtain ⟨key, found, hzip, hkey, hpart⟩ := exists_part_of_record? h hvalues
  exact ⟨found, List.mem_filterMap.2 ⟨(key, some found), hzip, if_pos hkey⟩, hpart⟩

/-- A list with an item of a given kind. -/
def ListRepeats (part : Json → Prop) (value : Json) : Prop :=
  ∃ items, value = .array items ∧ ∃ item ∈ items, part item

end SchemaLang.Json
