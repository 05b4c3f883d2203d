import Mathlib.Data.List.Induction
import SchemaLang.Proofs.Resolve.Order

/-!
# Where the order of dependencies departs from that of declaration

A walk places nothing but what the schema it starts from refers to, directly or through others
(`reaches_of_place`). So a schema that is ordered before one it was declared behind was placed by a
walk from a schema that depends on it, and that is declared no later than the other one
(`exists_dependent_of_moved`). Where no schema depends on a later one, nothing is moved: the order
is that of declaration (`dependencyOrder_eq_schemas_iff`). An order is of this kind, so that it is
its own order once its schemas are declared that way (`dependencyOrder_ofSchemas_order`).
-/

namespace SchemaLang.SchemaIndex

open Relation

variable {index : SchemaIndex} {placed order : List Schema}

/-! ## What a walk reaches -/

mutual

/-- What a walk places is reached from the schema it starts from. -/
theorem reaches_of_place (walk : List String) (placed : List Schema) (schema : Schema)
    (hmem : schema ∈ index.schemas) {extended : List Schema}
    (h : index.place walk placed schema hmem = .ok extended) {other : Schema}
    (hother : other ∈ extended) : other ∈ placed ∨ ReflTransGen index.RefersTo schema other := by
  rw [place] at h
  split at h
  case isTrue =>
    cases h
    exact .inl hother
  case isFalse =>
  split at h
  case isTrue => cases h
  case isFalse hwalk =>
    have := unvisited_lt hmem hwalk
    obtain ⟨middle, hmiddle, rfl⟩ := map_eq_ok.1 h
    rcases List.mem_append.1 hother with hbefore | hlast
    · refine (reaches_of_placeFields (walk ++ [schema.name]) placed schema.fields hmiddle
        hbefore).imp_right ?_
      rintro ⟨field, hfield, target, htarget, hreaches⟩
      exact .head ⟨hmem, field, hfield, htarget⟩ hreaches
    · rw [List.mem_singleton.1 hlast]
      exact .inr .refl
termination_by (index.unvisited walk, 0)

theorem reaches_of_placeFields (walk : List String) (placed : List Schema) (fields : List Field)
    {extended : List Schema} (h : index.placeFields walk placed fields = .ok extended)
    {other : Schema} (hother : other ∈ extended) :
    other ∈ placed ∨ ∃ field ∈ fields, ∃ target,
      index.resolve field = .ok (.schema target) ∧ ReflTransGen index.RefersTo target other := by
  cases fields with
  | nil =>
    rw [placeFields] at h
    cases h
    exact .inl hother
  | cons field fields =>
    have hbehind : ∀ {middle : List Schema},
        index.placeFields walk middle fields = .ok extended → other ∈ middle ∨ ∃ field ∈ fields,
          ∃ target, index.resolve field = .ok (.schema target) ∧
            ReflTransGen index.RefersTo target other :=
      fun hrest ↦ reaches_of_placeFields walk _ fields hrest hother
    simp only [List.exists_mem_cons_iff]
    by_cases hprimitive : field.primitive?.isSome = true
    · rw [placeFields_of_primitive hprimitive] at h
      exact (hbehind h).imp_right .inr
    · cases hget : index.get? field.type with
      | none =>
        rw [placeFields_of_unresolved hprimitive hget] at h
        cases h
      | some schema =>
        rw [placeFields_of_get? hprimitive hget] at h
        obtain ⟨middle, hmiddle, hrest⟩ := bind_eq_ok.1 h
        have hfield : index.resolve field = .ok (.schema schema) := by
          rw [resolve_of_not_primitive hprimitive, hget]
        rcases hbehind hrest with hfirst | hlater
        · exact (reaches_of_place walk placed schema (mem_of_get? hget) hmiddle
            hfirst).imp_right fun hreaches ↦ .inl ⟨schema, hfield, hreaches⟩
        · exact .inr (.inr hlater)
termination_by (index.unvisited walk, fields.length + 1)

end

/-- What some walks place, one after the other, is reached from where one of them starts. -/
theorem reaches_of_foldlM_place (schemas : List { schema // schema ∈ index.schemas })
    {placed all : List Schema}
    (h : schemas.foldlM (fun placed schema ↦ index.place [] placed schema.1 schema.2) placed =
      .ok all) {other : Schema} (hother : other ∈ all) :
    other ∈ placed ∨ ∃ start ∈ schemas, ReflTransGen index.RefersTo start.1 other := by
  induction schemas generalizing placed with
  | nil =>
    cases h
    exact .inl hother
  | cons schema schemas ih =>
    rw [List.foldlM_cons] at h
    obtain ⟨middle, hmiddle, hrest⟩ := bind_eq_ok.1 h
    rw [List.exists_mem_cons_iff]
    rcases ih hrest with hfirst | hlater
    · exact (reaches_of_place [] placed schema.1 schema.2 hmiddle hfirst).imp_right .inl
    · exact .inr (.inr hlater)

/-! ## Schemas that are moved -/

theorem idxOf_of_split {list before behind : List Schema} {schema : Schema}
    (hsplit : list = before ++ schema :: behind) (hnew : schema ∉ before) :
    list.idxOf schema = before.length := by
  rw [hsplit, List.idxOf_append_of_notMem hnew, List.idxOf_cons_self, Nat.add_zero]

/-- The walks up to a schema place it and nothing that is not reached from a schema up to it. -/
theorem exists_prefix_of_dependencyOrder (h : index.dependencyOrder = .ok order)
    {before behind : List Schema} {schema : Schema}
    (hsplit : index.schemas = before ++ schema :: behind) :
    ∃ placed, placed <+: order ∧ schema ∈ placed ∧ ∀ other ∈ placed,
      ∃ start ∈ before ++ [schema], ReflTransGen index.RefersTo start other := by
  have hattach : index.schemas.attach.map Subtype.val = (before ++ [schema]) ++ behind := by
    rw [List.attach_map_subtype_val, hsplit, List.append_cons]
  obtain ⟨starts, rest, heq, hstarts, -⟩ := List.map_eq_append_iff.1 hattach
  rw [dependencyOrder, heq, List.foldlM_append] at h
  obtain ⟨placed, hplaced, hrest⟩ := bind_eq_ok.1 h
  refine ⟨placed, prefix_of_foldlM_place rest placed hrest, ?_, fun other hother ↦ ?_⟩
  · obtain ⟨start, hstart, rfl⟩ : ∃ start ∈ starts, start.1 = schema := by
      rw [← List.mem_map, hstarts]
      exact List.mem_append_right before (List.mem_singleton_self schema)
    exact (foldlM_place_sound starts .nil hplaced).2.2 start hstart
  · rcases reaches_of_foldlM_place starts hplaced hother with hnil | ⟨start, hstart, hreaches⟩
    · exact absurd hnil List.not_mem_nil
    · exact ⟨start.1, hstarts ▸ List.mem_map_of_mem hstart, hreaches⟩

/-- A schema moves in front of another one only if a schema up to the other one depends on it. -/
theorem exists_dependent_of_moved (h : index.dependencyOrder = .ok order) {x y : Schema}
    (hx : x ∈ index.schemas) (hdeclared : index.schemas.idxOf x < index.schemas.idxOf y)
    (hmoved : order.idxOf y < order.idxOf x) :
    ∃ z ∈ index.schemas, index.schemas.idxOf z ≤ index.schemas.idxOf x ∧
      TransGen index.RefersTo z y := by
  obtain ⟨before, behind, hsplit, hnew⟩ := List.eq_append_cons_of_mem hx
  obtain ⟨placed, ⟨rest, rfl⟩, hplaced, hreaches⟩ := exists_prefix_of_dependencyOrder h hsplit
  have hy : y ∈ placed := by
    by_contra hlater
    rw [List.idxOf_append_of_notMem hlater, List.idxOf_append_of_mem hplaced] at hmoved
    have := List.idxOf_lt_length_of_mem hplaced
    omega
  obtain ⟨z, hz, hzy⟩ := hreaches y hy
  have hle : index.schemas.idxOf z ≤ index.schemas.idxOf x := by
    have hlt := List.idxOf_lt_length_of_mem hz
    rw [List.length_append, List.length_singleton] at hlt
    rw [idxOf_of_split hsplit hnew, hsplit, List.append_cons, List.idxOf_append_of_mem hz]
    exact Nat.le_of_lt_succ hlt
  refine ⟨z, ?_, hle, ?_⟩
  · rw [hsplit, List.append_cons]
    exact List.mem_append_left behind hz
  · rcases reflTransGen_iff_eq_or_transGen.1 hzy with rfl | hdepends
    · exact absurd hle (Nat.not_le.2 hdeclared)
    · exact hdepends

/-! ## Schemas that stay where they are -/

/-- A placed schema stands behind those it depends on. -/
theorem Placement.idxOf_lt (h : Placement index placed) {schema other : Schema}
    (hschema : schema ∈ placed) (hdepends : TransGen index.RefersTo schema other) :
    placed.idxOf other < placed.idxOf schema := by
  have hstep : ∀ {schema other : Schema}, schema ∈ placed → index.RefersTo schema other →
      placed.idxOf other < placed.idxOf schema := by
    intro schema other hschema hrefers
    obtain ⟨before, behind, hsplit, hnew⟩ := List.eq_append_cons_of_mem hschema
    have hother : other ∈ before := h.mem_of_refersTo hsplit hrefers
    rw [idxOf_of_split hsplit hnew, hsplit, List.idxOf_append_of_mem hother]
    exact List.idxOf_lt_length_of_mem hother
  induction hdepends with
  | single hfirst => exact hstep hschema hfirst
  | tail hbefore hlast ih =>
    have hmiddle := h.mem_of_reflTransGen hschema hbefore.to_reflTransGen
    exact Nat.lt_trans (hstep hmiddle hlast) ih

/-- Two lists of the same schemas are equal if no two of these change their order. -/
theorem eq_of_perm_of_idxOf {list other : List Schema} (hnodup : list.Nodup)
    (hperm : other.Perm list)
    (h : ∀ x ∈ list, ∀ y ∈ list, list.idxOf x < list.idxOf y →
      ¬other.idxOf y < other.idxOf x) : other = list := by
  have hother : other.Nodup := hperm.nodup_iff.2 hnodup
  have hantisymm : ∀ x y, x ∈ other → y ∈ list → list.idxOf x ≤ list.idxOf y →
      list.idxOf y ≤ list.idxOf x → x = y := by
    intro x y hx _ hxy hyx
    exact (List.idxOf_inj (hperm.subset hx)).1 (Nat.le_antisymm hxy hyx)
  have hsorted : other.Pairwise fun x y ↦ list.idxOf x ≤ list.idxOf y := by
    refine List.pairwise_iff_getElem.2 fun i j hi hj hij ↦ ?_
    by_contra hlt
    refine h _ (hperm.subset (List.getElem_mem hj)) _ (hperm.subset (List.getElem_mem hi))
      (Nat.not_le.1 hlt) ?_
    rwa [hother.idxOf_getElem, hother.idxOf_getElem]
  have hself : list.Pairwise fun x y ↦ list.idxOf x ≤ list.idxOf y := by
    refine List.pairwise_iff_getElem.2 fun i j hi hj hij ↦ ?_
    rw [hnodup.idxOf_getElem, hnodup.idxOf_getElem]
    exact Nat.le_of_lt hij
  exact hperm.eq_of_pairwise hantisymm hsorted hself

/-- Different schemas are a placement exactly if each refers to none but those before it. -/
theorem placement_iff (hnodup : placed.Nodup) (hsubset : placed ⊆ index.schemas) :
    Placement index placed ↔ ∀ before schema behind, placed = before ++ schema :: behind →
      ∀ field ∈ schema.fields, index.ResolvedWithin before field := by
  constructor
  · exact fun h before schema behind hsplit field ↦ h.resolvedWithin hsplit
  · intro h
    induction placed using List.reverseRecOn with
    | nil => exact .nil
    | append_singleton before schema ih =>
      obtain ⟨hbefore, -, hnew⟩ := List.nodup_append'.1 hnodup
      obtain ⟨hsubsetBefore, hindexed⟩ := List.append_subset.1 hsubset
      refine .concat (ih hbefore hsubsetBefore ?_) (hindexed (List.mem_singleton_self schema))
        (fun hmem ↦ hnew hmem (List.mem_singleton_self schema)) (h before schema [] rfl)
      rintro front other between rfl
      exact h front other (between ++ [schema]) (by rw [List.append_assoc, List.cons_append])

/-- The order is that of declaration exactly if this is a placement. -/
theorem dependencyOrder_eq_schemas_iff :
    index.dependencyOrder = .ok index.schemas ↔ Placement index index.schemas := by
  constructor
  · exact fun h ↦ (dependencyOrder_sound h).1
  · intro hplacement
    obtain ⟨order, h⟩ := dependencyOrder_isOk_iff.2
      (hplacement.allResolved_acyclic (List.Subset.refl _))
    rw [h, eq_of_perm_of_idxOf index.nodup_schemas (dependencyOrder_perm h)]
    intro x hx y _ hdeclared hmoved
    obtain ⟨z, hz, hle, hdepends⟩ := exists_dependent_of_moved h hx hdeclared hmoved
    have hlt := hplacement.idxOf_lt hz hdepends
    omega

/-! ## An order as the order of declaration -/

/-- A placement depends on what the names stand for only. -/
theorem Placement.of_get? {other : SchemaIndex} (h : Placement index placed)
    (hget : ∀ name, other.get? name = index.get? name) :
    Placement other placed := by
  have hresolve : ∀ field, other.resolve field = index.resolve field := by
    intro field
    rw [resolve, resolve, hget]
  induction h with
  | nil => exact .nil
  | @concat _ schema _ hindexed hnew hresolved ih =>
    refine ih.concat ?_ hnew fun field hfield ↦ ?_
    · have := get?_eq_some_iff.2 ⟨hindexed, rfl⟩
      exact (get?_eq_some_iff.1 ((hget schema.name).trans this)).1
    · rw [ResolvedWithin, hresolve]
      exact hresolved field hfield

theorem schemas_ofSchemas_of_perm (hperm : order.Perm index.schemas) :
    (ofSchemas order).schemas = order := by
  refine firstOfEachName_eq_self ((hperm.map Schema.name).nodup_iff.2 ?_)
  exact List.pairwise_map.2 index.distinct

/-- Declared in the order that is found, schemas are in order. -/
theorem dependencyOrder_ofSchemas_order (h : index.dependencyOrder = .ok order) :
    (ofSchemas order).dependencyOrder = .ok order := by
  have hperm := dependencyOrder_perm h
  have hschemas : (ofSchemas order).schemas = order := schemas_ofSchemas_of_perm hperm
  have hget : ∀ name, (ofSchemas order).get? name = index.get? name := by
    intro name
    refine Option.ext fun schema ↦ ?_
    rw [get?_eq_some_iff, get?_eq_some_iff, hschemas, hperm.mem_iff]
  have hplacement : Placement (ofSchemas order) (ofSchemas order).schemas := by
    rw [hschemas]
    exact (dependencyOrder_sound h).1.of_get? hget
  rw [dependencyOrder_eq_schemas_iff.2 hplacement, hschemas]

/--
The order of dependencies departs from that of declaration only where it must. If a schema comes in
front of one that it is declared behind, then the other one, or one declared before that, depends on
it. The order is that of declaration exactly if every field is resolved to a primitive type or to a
schema declared before its own. And the schemas of an order, declared in this order, keep it.
-/
theorem dependencyOrder_stable (index : SchemaIndex) :
    (∀ order, index.dependencyOrder = .ok order →
      (∀ x ∈ index.schemas, ∀ y ∈ index.schemas,
        index.schemas.idxOf x < index.schemas.idxOf y → order.idxOf y < order.idxOf x →
        ∃ z ∈ index.schemas, index.schemas.idxOf z ≤ index.schemas.idxOf x ∧
          TransGen index.RefersTo z y) ∧
      (ofSchemas order).schemas = order ∧ (ofSchemas order).dependencyOrder = .ok order) ∧
    (index.dependencyOrder = .ok index.schemas ↔
      ∀ before schema behind, index.schemas = before ++ schema :: behind →
        ∀ field ∈ schema.fields, index.ResolvedWithin before field) := by
  refine ⟨fun order h ↦ ⟨fun x hx y _ ↦ exists_dependent_of_moved h hx,
    schemas_ofSchemas_of_perm (dependencyOrder_perm h), dependencyOrder_ofSchemas_order h⟩, ?_⟩
  rw [dependencyOrder_eq_schemas_iff, placement_iff index.nodup_schemas (List.Subset.refl _)]

/--
`B` comes in front of `A` though nothing but `Top`, declared before both, refers to it. The order
that is found keeps itself.
-/
theorem dependencyOrder_stable_of_top :
    let top : Schema := ⟨"Top", [{ name := "b", type := "B", isArray := true }]⟩
    let a : Schema := ⟨"A", [{ name := "n", type := "int8" }]⟩
    let b : Schema := ⟨"B", []⟩
    let index := ofSchemas [top, a, b]
    index.dependencyOrder = .ok [b, top, a] ∧
    (ofSchemas [b, top, a]).dependencyOrder = .ok [b, top, a] ∧
    index.schemas.idxOf a < index.schemas.idxOf b ∧ [b, top, a].idxOf b < [b, top, a].idxOf a ∧
    ∃ z ∈ index.schemas, index.schemas.idxOf z ≤ index.schemas.idxOf a ∧
      TransGen index.RefersTo z b := by
  intro top a b index
  have horder : index.dependencyOrder = .ok [b, top, a] := by cbv
  obtain ⟨hforced, -, hagain⟩ := (dependencyOrder_stable index).1 _ horder
  have hdeclared : index.schemas.idxOf a < index.schemas.idxOf b := by decide
  have hmoved : [b, top, a].idxOf b < [b, top, a].idxOf a := by decide
  exact ⟨horder, hagain, hdeclared, hmoved,
    hforced a (by decide) b (by decide) hdeclared hmoved⟩

end SchemaLang.SchemaIndex
