import SchemaLang.Tree.Basic

/-!
# Values and the options left out of them

Reading a value off a tree never fails: an option that its owner does not have is left out, and a
report of it goes along with the value. Reports stay in the order in which the options are met. The
value by itself comes from the plain fold over the options and the plain map over the items, and the
reports are those of the options that set nothing (`value_withOptions`, `ignored_withOptions`).
-/

namespace SchemaLang

/-- What an option belongs to. -/
inductive OptionOwner where
  | field
  | method
  deriving DecidableEq, Repr

/-- An option that has no effect. -/
structure IgnoredOption where
  owner : OptionOwner
  key : String
  position : Text.Position
  deriving DecidableEq, Repr

/-- The report of an option that is left out. -/
def OptionNode.ignored (owner : OptionOwner) (entry : OptionNode) : IgnoredOption :=
  ⟨owner, entry.key.text, entry.key.position⟩

/-- A value that is read off a tree, with the options that are left out. -/
structure Built (α : Type) where
  value : α
  ignored : List IgnoredOption

namespace Built

variable {α β : Type}

instance : Monad Built where
  pure value := ⟨value, []⟩
  bind built next :=
    let following := next built.value
    ⟨following.value, built.ignored ++ following.ignored⟩

theorem value_bind (built : Built α) (next : α → Built β) :
    (built >>= next).value = (next built.value).value := rfl

theorem ignored_bind (built : Built α) (next : α → Built β) :
    (built >>= next).ignored = built.ignored ++ (next built.value).ignored := rfl

theorem ignored_map (f : α → β) (built : Built α) : (f <$> built).ignored = built.ignored :=
  List.append_nil _

instance : LawfulMonad Built :=
  LawfulMonad.mk' Built
    (fun built ↦ congrArg (Built.mk built.value) (List.append_nil _))
    (fun _ _ ↦ rfl)
    (fun _ _ _ ↦ congrArg (Built.mk _) (List.append_assoc _ _ _))

/-- The values of a list are read one by one. -/
theorem value_mapM (build : α → Built β) (items : List α) :
    (items.mapM build).value = items.map fun item ↦ (build item).value := by
  induction items with
  | nil => rfl
  | cons item items ih =>
    rw [List.mapM_cons, List.map_cons, ← ih]
    rfl

theorem ignored_mapM (build : α → Built β) (items : List α) :
    (items.mapM build).ignored = items.flatMap fun item ↦ (build item).ignored := by
  induction items with
  | nil => rfl
  | cons item items ih =>
    rw [List.mapM_cons, List.flatMap_cons, ← ih]
    exact congrArg _ (List.append_nil _)

variable (owner : OptionOwner) (set? : α → OptionNode → Option α)

/-- Sets an option, or leaves it out if nothing is to be set. -/
def setOption (current : α) (entry : OptionNode) : Built α :=
  match set? current entry with
  | some changed => pure changed
  | none => ⟨current, [entry.ignored owner]⟩

/-- Sets one option after the other. -/
def withOptions (start : α) (entries : List OptionNode) : Built α :=
  entries.foldlM (setOption owner set?) start

theorem value_setOption (current : α) (entry : OptionNode) :
    (setOption owner set? current entry).value = (set? current entry).getD current := by
  unfold setOption
  cases set? current entry <;> rfl

/-- Without the reports, options are set by a plain fold. -/
theorem value_withOptions (start : α) (entries : List OptionNode) :
    (withOptions owner set? start entries).value =
      entries.foldl (fun current entry ↦ (set? current entry).getD current) start := by
  unfold withOptions
  induction entries generalizing start with
  | nil => rfl
  | cons entry entries ih =>
    rw [List.foldlM_cons, List.foldl_cons, value_bind, ih, value_setOption]

variable {set?} in
/-- Where it does not depend on what was set before, the options that set nothing are left out. -/
theorem ignored_withOptions {ignores : OptionNode → Bool}
    (h : ∀ current entry, (set? current entry).isNone = ignores entry) (start : α)
    (entries : List OptionNode) : (withOptions owner set? start entries).ignored =
      (entries.filter ignores).map (·.ignored owner) := by
  unfold withOptions
  induction entries generalizing start with
  | nil => rfl
  | cons entry entries ih =>
    rw [List.foldlM_cons, ignored_bind, ih, List.filter_cons, ← h start entry]
    unfold setOption
    cases set? start entry <;> rfl

end Built

end SchemaLang
