import SchemaLang.Proofs.Resolve.Default
import SchemaLang.Proofs.Resolve.Order

/-!
# Definitions added behind others

Of schemas that share a name the first one counts, so that definitions added behind others only add
schemas to the index (`schemas_ofDefinitions_append`). A walk that has met no unknown type meets the
same schemas again in the larger index: what it has found, a default or a cycle, is found again, and
what it has placed is placed in front of all that is new (`answers_of_append`).
-/

namespace SchemaLang

theorem firstOfEachName_append (schemas more : List Schema) :
    firstOfEachName schemas <+: firstOfEachName (schemas ++ more) := by
  induction schemas with
  | nil => exact List.nil_prefix
  | cons schema schemas ih =>
    rw [List.cons_append, firstOfEachName, firstOfEachName]
    exact (List.prefix_cons_inj schema).2 (ih.filter _)

namespace SchemaIndex

theorem schemas_ofDefinitions_append (definitions more : List Definition) :
    (ofDefinitions definitions).schemas <+: (ofDefinitions (definitions ++ more)).schemas := by
  have hschemas : Definition.schemas (definitions ++ more) =
      Definition.schemas definitions ++ Definition.schemas more := List.filterMap_append
  rw [ofDefinitions, ofDefinitions, hschemas]
  exact firstOfEachName_append _ _

/-- A result other than a type that nothing defines. -/
def Settled {α : Type} (result : Except ResolveError α) : Prop :=
  ∀ type field, result ≠ .error (.unresolvedType type field)

namespace Settled

variable {α β : Type} {result : Except ResolveError α}

theorem ok (value : α) : Settled (.ok value) := nofun

theorem cyclicReference (path : List String) :
    Settled (.error (.cyclicReference path) : Except ResolveError α) := nofun

theorem of_bind {next : α → Except ResolveError β} (h : Settled (result >>= next)) :
    Settled result := by
  rintro type field rfl
  exact h type field rfl

theorem of_map {f : α → β} (h : Settled (result.map f)) : Settled result := by
  rintro type field rfl
  exact h type field rfl

end Settled

variable {index extended : SchemaIndex}

/-! ## Fields -/

theorem get?_of_larger (hlarger : index.schemas <+: extended.schemas) {name : String}
    {schema : Schema} (h : index.get? name = some schema) : extended.get? name = some schema := by
  obtain ⟨hmem, hname⟩ := get?_eq_some_iff.1 h
  exact get?_eq_some_iff.2 ⟨hlarger.subset hmem, hname⟩

theorem resolve_of_larger (hlarger : index.schemas <+: extended.schemas) {field : Field}
    (h : Settled (index.resolve field)) : extended.resolve field = index.resolve field := by
  cases hprimitive : field.primitive? with
  | some type => rw [resolve, resolve, hprimitive]
  | none =>
    cases hget : index.get? field.type with
    | some schema => rw [resolve, resolve, hprimitive, hget, get?_of_larger hlarger hget]
    | none =>
      rw [resolve, hprimitive, hget] at h
      exact absurd rfl (h field.type field.name)

/-! ## Defaults -/

mutual

/-- The default of a field is found again in a larger index. -/
theorem defaultOn_of_larger (hlarger : index.schemas <+: extended.schemas) (walk : List String)
    (field : Field) (h : Settled (index.defaultOn walk field)) :
    extended.defaultOn walk field = index.defaultOn walk field := by
  cases hown : field.ownDefault? with
  | some value => rw [defaultOn_of_ownDefault? hown, defaultOn_of_ownDefault? hown]
  | none =>
    cases hget : index.get? field.type with
    | none =>
      rw [defaultOn_of_unresolved hown hget] at h
      exact absurd rfl (h field.type field.name)
    | some schema =>
      rw [defaultOn_of_get? hown hget] at h
      rw [defaultOn_of_get? hown hget, defaultOn_of_get? hown (get?_of_larger hlarger hget)]
      by_cases hwalk : schema.name ∈ walk
      · rw [if_pos hwalk, if_pos hwalk]
      · rw [if_neg hwalk] at h
        have := unvisited_lt (mem_of_get? hget) hwalk
        rw [if_neg hwalk, if_neg hwalk, defaultsOn_of_larger hlarger _ _ h.of_map]
termination_by (index.unvisited walk, 0)

theorem defaultsOn_of_larger (hlarger : index.schemas <+: extended.schemas) (walk : List String)
    (fields : List Field) (h : Settled (index.defaultsOn walk fields)) :
    extended.defaultsOn walk fields = index.defaultsOn walk fields := by
  cases fields with
  | nil => rw [defaultsOn, defaultsOn]
  | cons field fields =>
    rw [defaultsOn] at h
    rw [defaultsOn, defaultsOn, defaultOn_of_larger hlarger walk field h.of_bind]
    cases hvalue : index.defaultOn walk field with
    | error error => rfl
    | ok value =>
      rw [hvalue, ok_bind] at h
      rw [ok_bind, ok_bind, defaultsOn_of_larger hlarger walk fields h.of_bind]
termination_by (index.unvisited walk, fields.length + 1)

end

theorem schemaDefault_of_larger (hlarger : index.schemas <+: extended.schemas) {schema : Schema}
    (h : Settled (index.schemaDefault schema)) :
    extended.schemaDefault schema = index.schemaDefault schema := by
  rw [schemaDefault] at h
  rw [schemaDefault, schemaDefault, defaultsOn_of_larger hlarger _ _ h.of_map]

/-! ## The order of dependencies -/

mutual

/-- What a walk places is placed again in a larger index. -/
theorem place_of_larger (hlarger : index.schemas <+: extended.schemas) (walk : List String)
    (placed : List Schema) (schema : Schema) (hmem : schema ∈ index.schemas)
    {all : List Schema} (h : index.place walk placed schema hmem = .ok all) :
    extended.place walk placed schema (hlarger.subset hmem) = .ok all := by
  rw [place] at h ⊢
  split at h
  case isTrue hany => rw [if_pos hany, h]
  case isFalse hany =>
  split at h
  case isTrue => cases h
  case isFalse hwalk =>
    have := unvisited_lt hmem hwalk
    obtain ⟨middle, hmiddle, rfl⟩ := map_eq_ok.1 h
    rw [if_neg hany, dif_neg hwalk, placeFields_of_larger hlarger _ _ _ hmiddle, map_ok]
termination_by (index.unvisited walk, 0)

theorem placeFields_of_larger (hlarger : index.schemas <+: extended.schemas) (walk : List String)
    (placed : List Schema) (fields : List Field) {all : List Schema}
    (h : index.placeFields walk placed fields = .ok all) :
    extended.placeFields walk placed fields = .ok all := by
  cases fields with
  | nil =>
    rw [placeFields] at h ⊢
    exact h
  | cons field fields =>
    by_cases hprimitive : field.primitive?.isSome = true
    · rw [placeFields_of_primitive hprimitive] at h ⊢
      exact placeFields_of_larger hlarger walk placed fields h
    · cases hget : index.get? field.type with
      | none =>
        rw [placeFields_of_unresolved hprimitive hget] at h
        cases h
      | some schema =>
        rw [placeFields_of_get? hprimitive hget] at h
        obtain ⟨middle, hmiddle, hrest⟩ := bind_eq_ok.1 h
        have hfirst := place_of_larger hlarger walk placed schema (mem_of_get? hget) hmiddle
        rw [placeFields_of_get? hprimitive (get?_of_larger hlarger hget), hfirst, ok_bind]
        exact placeFields_of_larger hlarger walk middle fields hrest
termination_by (index.unvisited walk, fields.length + 1)

end

/-- Walks from the same schemas one after the other, in an index and in a larger one. -/
theorem foldlM_place_of_larger (hlarger : index.schemas <+: extended.schemas)
    (schemas : List { schema // schema ∈ index.schemas })
    (others : List { schema // schema ∈ extended.schemas })
    (hsame : schemas.map Subtype.val = others.map Subtype.val) (placed : List Schema)
    {all : List Schema}
    (h : schemas.foldlM (fun placed schema ↦ index.place [] placed schema.1 schema.2) placed =
      .ok all) :
    others.foldlM (fun placed schema ↦ extended.place [] placed schema.1 schema.2) placed =
      .ok all := by
  induction schemas generalizing others placed with
  | nil =>
    rw [List.map_nil, eq_comm, List.map_eq_nil_iff] at hsame
    rw [hsame]
    exact h
  | cons schema schemas ih =>
    obtain ⟨other, others, rfl, hschema, hschemas⟩ := List.map_eq_cons_iff.1 hsame.symm
    obtain ⟨schema, hmem⟩ := schema
    obtain ⟨other, hother⟩ := other
    dsimp only at hschema
    subst hschema
    rw [List.foldlM_cons] at h ⊢
    obtain ⟨middle, hmiddle, hrest⟩ := bind_eq_ok.1 h
    have hfirst := place_of_larger hlarger [] placed other hmem hmiddle
    dsimp only
    rw [hfirst, ok_bind]
    exact ih others hschemas.symm middle hrest

/-- The order of an index is what the order of a larger one starts with. -/
theorem dependencyOrder_of_larger (hlarger : index.schemas <+: extended.schemas)
    {order later : List Schema} (h : index.dependencyOrder = .ok order)
    (hlater : extended.dependencyOrder = .ok later) : order <+: later := by
  have hattach : index.schemas <+: extended.schemas.attach.map Subtype.val := by
    rw [List.attach_map_subtype_val]
    exact hlarger
  obtain ⟨first, ⟨rest, hsplit⟩, hfirst⟩ := List.prefix_map_iff.1 hattach
  have hsame : index.schemas.attach.map Subtype.val = first.map Subtype.val := by
    rw [List.attach_map_subtype_val, hfirst]
  rw [dependencyOrder] at h hlater
  rw [← hsplit, List.foldlM_append, foldlM_place_of_larger hlarger _ first hsame [] h,
    ok_bind] at hlater
  exact prefix_of_foldlM_place rest order hlater

/--
Definitions added behind others change no answer about them. What a field is resolved to, its
default and the default of a schema stay as they are, cycles among them; only a type that nothing
defines may become one that something does. Where both orders exist, the one of all definitions
starts with that of the first ones.
-/
theorem answers_of_append (definitions more : List Definition) :
    let index := ofDefinitions definitions
    let extended := ofDefinitions (definitions ++ more)
    (∀ field, Settled (index.resolve field) → extended.resolve field = index.resolve field) ∧
    (∀ field, Settled (index.defaultOf field) →
      extended.defaultOf field = index.defaultOf field) ∧
    (∀ schema ∈ index.schemas, schema ∈ extended.schemas ∧
      (Settled (index.schemaDefault schema) →
        extended.schemaDefault schema = index.schemaDefault schema)) ∧
    ∀ order later, index.dependencyOrder = .ok order → extended.dependencyOrder = .ok later →
      order <+: later := by
  intro index extended
  have hlarger : index.schemas <+: extended.schemas := schemas_ofDefinitions_append definitions more
  refine ⟨fun field ↦ resolve_of_larger hlarger, fun field h ↦ ?_, fun schema hmem ↦ ?_,
    fun order later ↦ dependencyOrder_of_larger hlarger⟩
  · exact defaultOn_of_larger hlarger [] field h
  · exact ⟨hlarger.subset hmem, schemaDefault_of_larger hlarger⟩

/--
A schema of a name that is taken, and one that refers to the others, behind two schemas; and a
schema of a name that is taken behind two that refer to each other.
-/
theorem answers_of_append_taken_name :
    let a : Schema := ⟨"A", []⟩
    let b : Schema := ⟨"B", [{ name := "a", type := "A" }]⟩
    let c : Schema := ⟨"C", [{ name := "b", type := "B", isArray := true }]⟩
    let index := ofDefinitions [.schema b, .schema a]
    let extended := ofDefinitions
      ([.schema b, .schema a] ++ [.schema ⟨"A", [{ name := "b", type := "B" }]⟩, .schema c])
    extended.resolve { name := "a", type := "A" } = .ok (.schema a) ∧
    extended.defaultOf { name := "a", type := "A" } = .ok (.schema "A" []) ∧
    extended.schemaDefault b = .ok (.schema "B" [("a", .schema "A" [])]) ∧
    index.dependencyOrder = .ok [a, b] ∧ extended.dependencyOrder = .ok [a, b, c] ∧
    [a, b] <+: [a, b, c] ∧
    let first : Schema := ⟨"A", [{ name := "b", type := "B" }]⟩
    let second : Schema := ⟨"B", [{ name := "a", type := "A" }]⟩
    (ofDefinitions ([.schema first, .schema second] ++ [.schema ⟨"B", []⟩])).schemaDefault first =
      .error (.cyclicReference ["A", "B", "A"]) := by
  intro a b c index extended
  obtain ⟨hresolve, hdefault, hschema, horder⟩ := answers_of_append [.schema b, .schema a]
    [.schema ⟨"A", [{ name := "b", type := "B" }]⟩, .schema c]
  have hresolved : index.resolve { name := "a", type := "A" } = .ok (.schema a) := by cbv
  have hvalue : index.defaultOf { name := "a", type := "A" } = .ok (.schema "A" []) := by cbv
  have hschemaValue : index.schemaDefault b = .ok (.schema "B" [("a", .schema "A" [])]) := by cbv
  have hfirst : index.dependencyOrder = .ok [a, b] := by cbv
  have hlater : extended.dependencyOrder = .ok [a, b, c] := by cbv
  refine ⟨?_, ?_, ?_, hfirst, hlater, horder _ _ hfirst hlater, ?_⟩
  · rw [hresolve _ (hresolved ▸ .ok _), hresolved]
  · rw [hdefault _ (hvalue ▸ .ok _), hvalue]
  · rw [(hschema b (by decide)).2 (hschemaValue ▸ .ok _), hschemaValue]
  · intro first second
    have hcycle : (ofDefinitions [.schema first, .schema second]).schemaDefault first =
        .error (.cyclicReference ["A", "B", "A"]) := by
      cbv
    obtain ⟨-, -, hschema, -⟩ :=
      answers_of_append [.schema first, .schema second] [.schema ⟨"B", []⟩]
    rw [(hschema first (by decide)).2 (hcycle ▸ .cyclicReference _), hcycle]

end SchemaIndex

end SchemaLang
