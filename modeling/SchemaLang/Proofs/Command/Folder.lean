import Mathlib.Data.List.Infix
import SchemaLang.Command.Folder
import SchemaLang.Proofs.Result

/-!
# Places in folders and what a write changes

A path is followed through folders only, so all above the place that it leads to are folders. A file
written there therefore changes nothing else: what stood at any other place stands there still, and
the path leads to the same place as before, where the text is read back.
-/

namespace SchemaLang.Command.Folder

/-! ## A written entry -/

theorem lookup_filter_of_ne {key other : List String} (entries : List (List String × Entry))
    (hne : other ≠ key) : (entries.filter (·.1 ≠ key)).lookup other = entries.lookup other := by
  induction entries with
  | nil => rfl
  | cons first rest ih =>
    obtain ⟨name, entry⟩ := first
    rw [List.filter_cons, List.lookup_cons]
    split
    · rw [List.lookup_cons, ih]
    · rename_i hdropped
      have hname : name = key := by simpa using hdropped
      have hother : (other == name) = false := by simpa [hname] using hne
      rw [ih, hother]

theorem lookup_filter_self (key : List String) (entries : List (List String × Entry)) :
    (entries.filter (·.1 ≠ key)).lookup key = none := by
  rw [List.lookup_eq_none_iff]
  intro entry hentry
  have hne : entry.1 ≠ key := by simpa using (List.mem_filter.1 hentry).2
  simpa using hne.symm

variable {folder : Folder} {place other : List String}

/-- Whether an entry lies at a place or below it. -/
def holds (folder : Folder) (place : List String) : Bool :=
  folder.entries.any fun (key, _) => place.isPrefixOf key

@[simp]
theorem entry?_nil (folder : Folder) : folder.entry? [] = some .folder := rfl

theorem entry?_of_ne_nil (hplace : place ≠ []) :
    folder.entry? place =
      (folder.entries.lookup place).or (if folder.holds place then some .folder else none) := by
  unfold entry?
  rw [if_neg hplace]
  cases folder.entries.lookup place <;> rfl

theorem entry?_withEntry_self (hplace : place ≠ []) (entry : Entry) :
    Folder.entry? (folder.withEntry place entry) place = some entry := by
  rw [entry?_of_ne_nil hplace, withEntry, List.lookup_append, lookup_filter_self]
  simp

/-- All above a place are folders. -/
def Below (folder : Folder) (place : List String) : Prop :=
  ∀ above, above <+: place → above ≠ place → folder.entry? above = some .folder

theorem lookup_withEntry_of_ne (entry : Entry) (hne : other ≠ place) :
    (folder.withEntry place entry).entries.lookup other = folder.entries.lookup other := by
  have hlast : (other == place) = false := by simpa using hne
  rw [withEntry, List.lookup_append, lookup_filter_of_ne _ hne, List.lookup_cons, hlast]
  exact Option.or_none

theorem holds_withEntry_of_above (entry : Entry) (habove : other <+: place) :
    (folder.withEntry place entry).holds other = true := by
  rw [holds, withEntry, List.any_append]
  simp [habove]

theorem holds_withEntry_of_not_above (entry : Entry) (habove : ¬other <+: place) :
    (folder.withEntry place entry).holds other = folder.holds other := by
  have hnot : other.isPrefixOf place = false := by
    rwa [← Bool.not_eq_true, List.isPrefixOf_iff_prefix]
  rw [holds, withEntry, List.any_append, List.any_filter, holds]
  simp only [List.any_cons, List.any_nil, hnot, Bool.or_false]
  congr 1
  funext ⟨key, _⟩
  by_cases hkey : key = place
  · simp [hkey, hnot]
  · simp [hkey]

/-- An entry below folders changes what stands at its own place only. -/
theorem entry?_withEntry_of_ne (hbelow : folder.Below place) (entry : Entry)
    (hne : other ≠ place) :
    Folder.entry? (folder.withEntry place entry) other = folder.entry? other := by
  by_cases hnil : other = []
  · rw [hnil, entry?_nil, entry?_nil]
  by_cases habove : other <+: place
  -- The new entry would make `other` a folder, which it is before.
  · have hfolder := hbelow other habove hne
    rw [hfolder, entry?_of_ne_nil hnil, lookup_withEntry_of_ne entry hne,
      holds_withEntry_of_above entry habove]
    rw [entry?_of_ne_nil hnil] at hfolder
    cases hentry : folder.entries.lookup other with
    | none => rfl
    | some found => rwa [hentry] at hfolder
  · rw [entry?_of_ne_nil hnil, entry?_of_ne_nil hnil, lookup_withEntry_of_ne entry hne,
      holds_withEntry_of_not_above entry habove]

/-! ## Places that paths lead to -/

theorem Below.dropLast (hbelow : folder.Below place) : folder.Below place.dropLast := by
  have hdrop := List.dropLast_prefix place
  intro above habove hne
  apply hbelow above (habove.trans hdrop)
  rintro rfl
  exact hne (habove.eq_of_length_le hdrop.length_le)

theorem Below.concat (hbelow : folder.Below place) (hplace : folder.entry? place = some .folder)
    (segment : String) : folder.Below (place ++ [segment]) := by
  intro above habove hne
  rcases List.prefix_concat_iff.1 habove with heq | habove
  · exact absurd heq hne
  · by_cases hself : above = place
    · rwa [hself]
    · exact hbelow above habove hself

/-- A path leads to a place below folders. -/
theorem below_of_follow {segments : List String} {target : List String}
    (hbelow : folder.Below place) (hfollow : folder.follow place segments = .ok target) :
    folder.Below target := by
  induction segments generalizing place with
  | nil => exact Except.ok.inj hfollow ▸ hbelow
  | cons segment rest ih =>
    rw [follow] at hfollow
    split at hfollow
    · cases hfollow
    · cases hfollow
    · rename_i hplace
      split_ifs at hfollow
      · exact ih hbelow hfollow
      · exact ih hbelow.dropLast hfollow
      · exact ih (hbelow.concat hplace segment) hfollow

/-- A path leads to the same place where all folders are kept. -/
theorem follow_of_keeps_folders {written : Folder} {segments : List String} {target : List String}
    (hkept : ∀ place, folder.entry? place = some .folder → written.entry? place = some .folder)
    (hfollow : folder.follow place segments = .ok target) :
    written.follow place segments = .ok target := by
  induction segments generalizing place with
  | nil => exact hfollow
  | cons segment rest ih =>
    rw [follow] at hfollow ⊢
    split at hfollow
    · cases hfollow
    · cases hfollow
    · rename_i hplace
      rw [hkept place hplace]
      dsimp only
      split_ifs at hfollow ⊢ <;> exact ih hfollow

theorem locate_eq_ok_iff {path : String} :
    folder.locate path = .ok place ↔
      isAbsolute path = false ∧ folder.follow [] (segments path) = .ok place := by
  cases habsolute : isAbsolute path <;> simp [locate, habsolute]

theorem below_of_locate {path : String} (hlocate : folder.locate path = .ok place) :
    folder.Below place := by
  have hroot : folder.Below [] := fun above habove hne ↦ absurd (List.prefix_nil.1 habove) hne
  exact below_of_follow hroot (locate_eq_ok_iff.1 hlocate).2

theorem locate_of_keeps_folders {written : Folder} {path : String}
    (hkept : ∀ place, folder.entry? place = some .folder → written.entry? place = some .folder)
    (hlocate : folder.locate path = .ok place) : written.locate path = .ok place := by
  obtain ⟨habsolute, hfollow⟩ := locate_eq_ok_iff.1 hlocate
  exact locate_eq_ok_iff.2 ⟨habsolute, follow_of_keeps_folders hkept hfollow⟩

/-! ## A written file -/

/-- A path leads to a place where a file can be written: it ends in no slash, and no folder stands
there. -/
structure Writable (folder : Folder) (path : String) (place : List String) : Prop where
  noSlash : endsInSlash path = false
  located : folder.locate path = .ok place
  noFolder : folder.entry? place ≠ some .folder

namespace Writable

variable {path : String}

theorem ne_nil (hpath : folder.Writable path place) : place ≠ [] := by
  rintro rfl
  exact hpath.noFolder (entry?_nil folder)

/-- What stood at the other places stands there after a write. -/
theorem entry?_withEntry (hpath : folder.Writable path place) (entry : Entry)
    (hne : other ≠ place) :
    Folder.entry? (folder.withEntry place entry) other = folder.entry? other :=
  entry?_withEntry_of_ne (below_of_locate hpath.located) entry hne

theorem writeFile (hpath : folder.Writable path place) (text : String) :
    folder.writeFile path text = .ok (folder.withEntry place (.file text.toUTF8)) := by
  rw [Folder.writeFile, if_neg (by rw [hpath.noSlash]; exact Bool.false_ne_true), hpath.located,
    ok_bind]
  split
  · exact absurd ‹_› hpath.noFolder
  · rfl

/-- What is written is read back. -/
theorem readFile (hpath : folder.Writable path place) (text : String) :
    (folder.withEntry place (.file text.toUTF8)).readFile path = .ok text := by
  have hlocate : (folder.withEntry place (.file text.toUTF8)).locate path = .ok place := by
    apply locate_of_keeps_folders _ hpath.located
    intro other hother
    have hne : other ≠ place := by
      rintro rfl
      exact hpath.noFolder hother
    rw [hpath.entry?_withEntry _ hne, hother]
  have htext : String.fromUTF8? text.toUTF8 = some text := dif_pos text.isValidUTF8
  rw [Folder.readFile, hlocate, ok_bind, entry?_withEntry_self hpath.ne_nil]
  dsimp only
  rw [htext]

end Writable

/-- A write succeeds exactly where a path is writable. -/
theorem writeFile_eq_ok_iff {path text : String} {written : Folder} :
    folder.writeFile path text = .ok written ↔
      ∃ place, folder.Writable path place ∧
        written = folder.withEntry place (.file text.toUTF8) := by
  constructor
  · intro hwrite
    unfold Folder.writeFile at hwrite
    split at hwrite
    · obtain ⟨place, -, hwrite⟩ := bind_eq_ok.1 hwrite
      cases hwrite
    · rename_i hslash
      obtain ⟨place, hlocate, hwrite⟩ := bind_eq_ok.1 hwrite
      split at hwrite
      · cases hwrite
      · rename_i hfolder
        exact ⟨place, ⟨Bool.eq_false_iff.2 hslash, hlocate, hfolder⟩, (Except.ok.inj hwrite).symm⟩
  · rintro ⟨place, hpath, rfl⟩
    exact hpath.writeFile text

end SchemaLang.Command.Folder
