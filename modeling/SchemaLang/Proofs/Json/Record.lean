import Mathlib.Data.List.Nodup
import SchemaLang.Definition.Decode
import SchemaLang.Proofs.Json.Reread
import SchemaLang.Proofs.Result

/-!
# Records in JSON texts

A record is written as an object with a member for each key that has a value. Read as a record again
it gives the values by the order of the keys (`record?_ofRecord`), and behind a text it gives what
is read for each of them (`reread?_ofRecord_bind`).
-/

namespace SchemaLang.Json

variable {keys : List String} {values : List (Option Json)} {depth : Nat}

/-- The members of a record with the given values under keys. A missing value has no member. -/
def recordMembers (keys : List String) (values : List (Option Json)) : List (String × Json) :=
  (keys.zip values).flatMap fun entry ↦ member? entry.1 entry.2

/-- The record with the given values under keys. -/
def ofRecord (keys : List String) (values : List (Option Json)) : Json :=
  object (recordMembers keys values)

theorem valuesOf_append (key : String) (members others : List (String × Json)) :
    valuesOf key (members ++ others) = valuesOf key members ++ valuesOf key others := by
  rw [valuesOf, List.filter_append, List.map_append, valuesOf, valuesOf]

theorem valuesOf_member?_self (key : String) (value : Option Json) :
    valuesOf key (member? key value) = value.toList := by
  cases value <;> simp [valuesOf, member?]

theorem valuesOf_member?_of_ne {key other : String} (h : other ≠ key) (value : Option Json) :
    valuesOf key (member? other value) = [] := by
  cases value <;> simp [valuesOf, member?, h]

theorem valuesOf_eq_nil {key : String} {members : List (String × Json)}
    (h : ∀ member ∈ members, member.1 ≠ key) : valuesOf key members = [] := by
  rw [valuesOf, List.map_eq_nil_iff, List.filter_eq_nil_iff]
  intro member hmem
  simpa using h member hmem

theorem mem_keys_of_mem_entries {entries : List (String × Option Json)} {member : String × Json}
    (h : member ∈ entries.flatMap fun entry ↦ member? entry.1 entry.2) :
    member.1 ∈ entries.map Prod.fst := by
  obtain ⟨entry, hentry, hmember⟩ := List.mem_flatMap.1 h
  have hkey : member.1 = entry.1 := by
    cases hvalue : entry.2 with
    | none => simp [hvalue, member?] at hmember
    | some value =>
      rw [hvalue, member?, List.mem_singleton] at hmember
      rw [hmember]
  rw [hkey]
  exact List.mem_map_of_mem hentry

theorem valuesOf_entries {entries : List (String × Option Json)}
    (hnodup : (entries.map Prod.fst).Nodup) {entry : String × Option Json}
    (hmem : entry ∈ entries) :
    valuesOf entry.1 (entries.flatMap fun entry ↦ member? entry.1 entry.2) = entry.2.toList := by
  induction entries with
  | nil => exact absurd hmem List.not_mem_nil
  | cons first entries ih =>
    rw [List.map_cons, List.nodup_cons] at hnodup
    rw [List.flatMap_cons, valuesOf_append]
    rcases List.mem_cons.1 hmem with rfl | hrest
    · have hnil : valuesOf entry.1 (entries.flatMap fun entry ↦ member? entry.1 entry.2) = [] := by
        apply valuesOf_eq_nil
        rintro member hmember heq
        exact hnodup.1 (heq ▸ mem_keys_of_mem_entries hmember)
      rw [valuesOf_member?_self, hnil, List.append_nil]
    · have hne : first.1 ≠ entry.1 := by
        intro heq
        rw [heq] at hnodup
        exact hnodup.1 (List.mem_map_of_mem hrest)
      rw [valuesOf_member?_of_ne hne, ih hnodup.2 hrest, List.nil_append]

theorem mem_keys_of_mem_recordMembers {member : String × Json}
    (h : member ∈ recordMembers keys values) : member.1 ∈ keys := by
  obtain ⟨entry, hentry, hkey⟩ := List.mem_map.1 (mem_keys_of_mem_entries h)
  rw [← hkey]
  exact (List.of_mem_zip hentry).1

/-- The values under the keys of a record are those it was made of. -/
theorem record?_ofRecord (hnodup : keys.Nodup) (hlength : keys.length = values.length) :
    (ofRecord keys values).record? keys = some values := by
  have hkeys : (keys.zip values).map Prod.fst = keys := List.map_fst_zip (by omega)
  have hvalues : (keys.zip values).map Prod.snd = values := List.map_snd_zip (by omega)
  rw [ofRecord, record?, mapM_eq_some_iff]
  calc
    _ = (keys.zip values).map fun entry ↦ single? (recordMembers keys values) entry.1 := by
      conv_lhs => rw [← hkeys, List.map_map, hkeys]
      rfl
    _ = (keys.zip values).map fun entry ↦ some entry.2 := by
      rw [List.map_inj_left]
      intro entry hentry
      rw [single?, recordMembers, valuesOf_entries (by rwa [hkeys]) hentry]
      cases entry.2 <;> rfl
    _ = values.map some := by
      conv_rhs => rw [← hvalues, List.map_map]
      rfl

/-! ## Records behind a text -/

/-- What is read for a value that may be missing. -/
def rereadMember? (depth : Nat) : Option Json → Option (Option Json)
  | none => some none
  | some value => (reread? depth value).map some

theorem rereadMember?_some (value : Json) :
    rereadMember? depth (some value) = (reread? depth value).map some := rfl

theorem mapM_recordMembers (hlength : keys.length = values.length) :
    (recordMembers keys values).mapM
        (fun member ↦ (reread? depth member.2).map (member.1, ·)) =
      (values.mapM (rereadMember? depth)).map (recordMembers keys) := by
  induction keys generalizing values with
  | nil =>
    rw [List.eq_nil_of_length_eq_zero hlength.symm]
    rfl
  | cons key keys ih =>
    obtain ⟨value, values, rfl⟩ := List.exists_cons_of_length_eq_add_one hlength.symm
    have hcons (value : Option Json) (values : List (Option Json)) :
        recordMembers (key :: keys) (value :: values) =
          member? key value ++ recordMembers keys values := rfl
    have hrest := ih (Nat.succ_inj.1 hlength)
    rw [hcons, List.mapM_append, hrest, List.mapM_cons]
    cases value with
    | none => cases values.mapM (rereadMember? depth) <;> rfl
    | some value =>
      simp only [member?, rereadMember?, List.mapM_cons, List.mapM_nil]
      cases reread? depth value with
      | none => rfl
      | some value => cases values.mapM (rereadMember? depth) <;> rfl

/-- A record behind a text is the record of what is read for each value. -/
theorem reread?_ofRecord (hlength : keys.length = values.length) :
    reread? (depth + 1) (ofRecord keys values) =
      (values.mapM (rereadMember? depth)).map (ofRecord keys) := by
  rw [ofRecord, reread?, mapM_recordMembers hlength, Option.map_map]
  rfl

/-- A record behind a text is decoded from what is read for each of its values. -/
theorem reread?_ofRecord_bind {α : Type} {ofJson? : Json → Option α}
    {ofValues? : List (Option Json) → Option α}
    (hdecode : ∀ value, ofJson? value = (record? keys value).bind ofValues?) (hnodup : keys.Nodup)
    (hlength : keys.length = values.length) :
    (reread? (depth + 1) (ofRecord keys values)).bind ofJson? =
      (values.mapM (rereadMember? depth)).bind ofValues? := by
  rw [reread?_ofRecord hlength]
  cases hvalues : values.mapM (rereadMember? depth) with
  | none => rfl
  | some reread =>
    have hreread : keys.length = reread.length := hlength.trans (length_of_mapM_eq_some hvalues)
    rw [Option.map_some, Option.bind_some, hdecode, record?_ofRecord hnodup hreread]

end SchemaLang.Json
