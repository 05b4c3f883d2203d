import Mathlib.Data.List.Forall2

/-!
# Results that may be errors or missing

How a result of a computation is followed through the steps that come after it: a step goes on with
a value and passes an error through. A list of results that may be missing has values if all of them
do, one step over all items or two steps over all items alike. A list of results that may be errors
has a value for each item, so that items and values stand side by side.
-/

namespace SchemaLang

universe u v

variable {ε : Type u} {α β : Type v}

theorem ok_bind (value : α) (next : α → Except ε β) : (Except.ok value >>= next) = next value := rfl

theorem error_bind (error : ε) (next : α → Except ε β) :
    (Except.error error >>= next) = .error error := rfl

theorem bind_eq_ok {result : Except ε α} {next : α → Except ε β} {value : β} :
    (result >>= next) = .ok value ↔ ∃ a, result = .ok a ∧ next a = .ok value := by
  cases result with
  | error error => simp [error_bind]
  | ok a => simp [ok_bind]

theorem bind_eq_error {result : Except ε α} {next : α → Except ε β} {error : ε} :
    (result >>= next) = .error error ↔
      result = .error error ∨ ∃ a, result = .ok a ∧ next a = .error error := by
  cases result with
  | error other => simp [error_bind]
  | ok a => simp [ok_bind]

theorem pure_eq_ok {value other : α} : (pure value : Except ε α) = .ok other ↔ value = other :=
  ⟨Except.ok.inj, congrArg Except.ok⟩

theorem map_ok (f : α → β) (value : α) : (Except.ok value : Except ε α).map f = .ok (f value) := rfl

theorem map_error (f : α → β) (error : ε) :
    (Except.error error : Except ε α).map f = .error error := rfl

theorem map_eq_ok {result : Except ε α} {f : α → β} {value : β} :
    result.map f = .ok value ↔ ∃ a, result = .ok a ∧ f a = value := by
  cases result <;> simp [Except.map]

theorem map_eq_error {result : Except ε α} {f : α → β} {error : ε} :
    result.map f = .error error ↔ result = .error error := by
  cases result <;> simp [Except.map]

/-- A step over all items has values if it has one for each item. -/
theorem mapM_eq_ok_iff {f : α → Except ε β} {items : List α} {values : List β} :
    items.mapM f = .ok values ↔
      List.Forall₂ (fun item value ↦ f item = .ok value) items values := by
  induction items generalizing values with
  | nil =>
    rw [List.mapM_nil, pure_eq_ok, List.forall₂_nil_left_iff]
    exact eq_comm
  | cons item items ih =>
    rw [List.mapM_cons, bind_eq_ok, List.forall₂_cons_left_iff]
    simp only [bind_eq_ok, ih, pure_eq_ok]
    constructor
    · rintro ⟨value, hvalue, rest, hrest, rfl⟩
      exact ⟨value, rest, hvalue, hrest, rfl⟩
    · rintro ⟨value, rest, hvalue, hrest, rfl⟩
      exact ⟨value, hvalue, rest, hrest, rfl⟩

theorem bind_isOk_iff {result : Except ε α} {next : α → Except ε β} :
    (∃ value, (result >>= next) = .ok value) ↔
      ∃ a, result = .ok a ∧ ∃ value, next a = .ok value := by
  cases result with
  | error error => simp [error_bind]
  | ok a => simp [ok_bind]

theorem mapM_isOk_iff {f : α → Except ε β} {items : List α} :
    (∃ values, items.mapM f = .ok values) ↔ ∀ item ∈ items, ∃ value, f item = .ok value := by
  induction items with
  | nil => exact iff_of_true ⟨[], rfl⟩ (List.forall_mem_nil _)
  | cons item items ih =>
    rw [List.mapM_cons, bind_isOk_iff, List.forall_mem_cons, ← ih]
    constructor
    · intro ⟨value, hvalue, hrest⟩
      obtain ⟨values, hvalues, -⟩ := bind_isOk_iff.1 hrest
      exact ⟨⟨value, hvalue⟩, values, hvalues⟩
    · intro ⟨⟨value, hvalue⟩, values, hvalues⟩
      exact ⟨value, hvalue, bind_isOk_iff.2 ⟨values, hvalues, _, rfl⟩⟩

theorem mapM_eq_some_iff {f : α → Option β} {items : List α} {values : List β} :
    items.mapM f = some values ↔ items.map f = values.map some := by
  induction items generalizing values with
  | nil => cases values <;> simp
  | cons item items ih =>
    cases values with
    | nil => simp [Option.bind_eq_some_iff]
    | cons value values =>
      simp [Option.bind_eq_some_iff, ih]

theorem length_of_mapM_eq_some {f : α → Option β} {items : List α} {values : List β}
    (h : items.mapM f = some values) : items.length = values.length := by
  have hmap := congrArg List.length (mapM_eq_some_iff.1 h)
  rwa [List.length_map, List.length_map] at hmap

theorem mapM_eq_some_self_iff {f : α → Option α} {items : List α} :
    items.mapM f = some items ↔ ∀ item ∈ items, f item = some item := by
  rw [mapM_eq_some_iff, List.map_inj_left]

theorem mem_zip_of_mapM {f : α → Option β} {items : List α} {values : List β}
    (h : items.mapM f = some values) {item : α} (hitem : item ∈ items) :
    ∃ value, f item = some value ∧ (item, value) ∈ items.zip values := by
  obtain ⟨i, hi⟩ := List.mem_iff_getElem?.1 hitem
  have hvalue := congrArg (·[i]?) (mapM_eq_some_iff.1 h)
  simp only [List.getElem?_map, hi, Option.map_some] at hvalue
  obtain ⟨value, hvalue, heq⟩ := Option.map_eq_some_iff.1 hvalue.symm
  exact ⟨value, heq.symm, List.mem_iff_getElem?.2
    ⟨i, List.getElem?_zip_eq_some.2 ⟨hi, hvalue⟩⟩⟩

theorem mapM_congr {f g : α → Option β} {items : List α} (h : ∀ item ∈ items, f item = g item) :
    items.mapM f = items.mapM g := by
  apply Option.ext
  intro values
  rw [mapM_eq_some_iff, mapM_eq_some_iff, List.map_congr_left h]

/-- Two steps over all items are one step over all items. -/
theorem mapM_bind_mapM {γ : Type v} (f : α → Option β) (g : β → Option γ) (items : List α) :
    (items.mapM f).bind (List.mapM g) = items.mapM fun item ↦ (f item).bind g := by
  induction items with
  | nil => rfl
  | cons item items ih =>
    simp only [List.mapM_cons, ← ih]
    cases f item with
    | none => rfl
    | some value =>
      cases items.mapM f with
      | none => cases hg : g value <;> simp [hg]
      | some values => simp

/-! ## Items and their values -/

variable {γ : Type u} {R : γ → β → Prop} {items : List γ} {values : List β}

/-- A value in a list of values stands where its item stands in the list of items. -/
theorem exists_split_of_forall₂ {front back : List β} {value : β}
    (h : List.Forall₂ R items (front ++ value :: back)) :
    ∃ before item behind, items = before ++ item :: behind ∧
      List.Forall₂ R before front ∧ R item value ∧ List.Forall₂ R behind back := by
  have hfront := List.forall₂_take_append items front (value :: back) h
  have hrest := List.forall₂_drop_append items front (value :: back) h
  obtain ⟨item, behind, hitem, hbehind, hdrop⟩ := List.forall₂_cons_right_iff.1 hrest
  refine ⟨items.take front.length, item, behind, ?_, hfront, hitem, hbehind⟩
  rw [← hdrop, List.take_append_drop]

theorem exists_item_of_mem (h : List.Forall₂ R items values) {value : β} (hvalue : value ∈ values) :
    ∃ item ∈ items, R item value := by
  obtain ⟨front, back, rfl⟩ := List.append_of_mem hvalue
  obtain ⟨before, item, behind, rfl, -, hitem, -⟩ := exists_split_of_forall₂ h
  exact ⟨item, List.mem_append_right before List.mem_cons_self, hitem⟩

theorem exists_value_of_mem (h : List.Forall₂ R items values) {item : γ} (hitem : item ∈ items) :
    ∃ value ∈ values, R item value :=
  exists_item_of_mem (R := flip R) h.flip hitem

theorem forall_of_forall₂ {p : γ → Prop} {q : β → Prop} (h : List.Forall₂ R items values)
    (hstep : ∀ item value, R item value → p item → q value) (hitems : ∀ item ∈ items, p item) :
    ∀ value ∈ values, q value := by
  intro value hvalue
  obtain ⟨item, hitem, hrelated⟩ := exists_item_of_mem h hvalue
  exact hstep item value hrelated (hitems item hitem)

theorem map_eq_map_of_forall₂ {δ : Type*} (h : List.Forall₂ R items values) {f : γ → δ} {g : β → δ}
    (hfg : ∀ item value, R item value → f item = g value) : items.map f = values.map g := by
  rw [← List.forall₂_eq_eq_eq]
  apply List.forall₂_map_left_iff.2
  apply List.forall₂_map_right_iff.2
  exact h.imp hfg

/-- What is found in some of the values is found in some of the items. -/
theorem mem_flatMap_iff_of_forall₂ {δ : Type*} (h : List.Forall₂ R items values) {f : β → List δ}
    {p : γ → Prop} {a : δ} (hiff : ∀ item value, R item value → (a ∈ f value ↔ p item)) :
    a ∈ values.flatMap f ↔ ∃ item ∈ items, p item := by
  rw [List.mem_flatMap]
  constructor
  · intro ⟨value, hvalue, ha⟩
    obtain ⟨item, hitem, hrelated⟩ := exists_item_of_mem h hvalue
    exact ⟨item, hitem, (hiff item value hrelated).1 ha⟩
  · intro ⟨item, hitem, hp⟩
    obtain ⟨value, hvalue, hrelated⟩ := exists_value_of_mem h hitem
    exact ⟨value, hvalue, (hiff item value hrelated).2 hp⟩

/-! ## Values that may be missing on both sides -/

section Related

variable {value : Option γ} {other : Option β} {others : List β}

theorem rel_imp {S : γ → β → Prop} (h : Option.Rel R value other)
    (himp : ∀ value other, R value other → S value other) : Option.Rel S value other := by
  cases h with
  | some hrel => exact .some (himp _ _ hrel)
  | none => exact .none

theorem rel_symm {R : β → β → Prop} {value other : Option β} (h : Option.Rel R value other)
    (hsymm : ∀ value other, R value other → R other value) : Option.Rel R other value := by
  cases h with
  | some hrel => exact .some (hsymm _ _ hrel)
  | none => exact .none

theorem length_eq_of_rel {R : Nat → γ → β → Prop}
    (h : ∀ i, Option.Rel (R i) items[i]? others[i]?) : items.length = others.length := by
  have hle (i : Nat) : items.length ≤ i ↔ others.length ≤ i := by
    have hrel := h i
    rw [← List.getElem?_eq_none_iff, ← List.getElem?_eq_none_iff]
    generalize items[i]? = item at hrel ⊢
    generalize others[i]? = other at hrel ⊢
    cases hrel <;> simp
  exact Nat.le_antisymm ((hle _).2 (Nat.le_refl _)) ((hle _).1 (Nat.le_refl _))

theorem rel_getElem?_of_forall₂ (h : List.Forall₂ R items others) (i : Nat) :
    Option.Rel R items[i]? others[i]? := by
  induction h generalizing i with
  | nil => exact .none
  | cons hitem _ ih =>
    cases i with
    | zero => exact .some hitem
    | succ i => exact ih i

theorem forall₂_of_rel_getElem? (h : ∀ i : Nat, Option.Rel R items[i]? others[i]?) :
    List.Forall₂ R items others :=
  List.forall₂_iff_get.2 ⟨length_eq_of_rel h, fun i hi hi' ↦ by simpa [hi, hi'] using h i⟩

/-- Two steps over all items have related values, item by item, if they have for each item. -/
theorem rel_mapM {R : α → β → β → Prop} {f g : α → Option β} {items : List α}
    (h : ∀ item ∈ items, Option.Rel (R item) (f item) (g item)) :
    Option.Rel (fun values others ↦ List.Forall₂ (fun entry other ↦ R entry.1 entry.2 other)
      (items.zip values) others) (items.mapM f) (items.mapM g) := by
  induction items with
  | nil => exact .some .nil
  | cons item items ih =>
    obtain ⟨hitem, hitems⟩ := List.forall_mem_cons.1 h
    have hrest := ih hitems
    rw [List.mapM_cons, List.mapM_cons]
    generalize f item = value at hitem
    generalize g item = other at hitem
    generalize items.mapM f = values at hrest
    generalize items.mapM g = others at hrest
    cases hitem with
    | none => exact .none
    | some hvalue =>
      cases hrest with
      | none => exact .none
      | some hvalues => exact .some (.cons hvalue hvalues)

end Related

end SchemaLang
