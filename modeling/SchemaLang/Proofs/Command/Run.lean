import SchemaLang.Proofs.Code.File
import SchemaLang.Proofs.Command.Folder

/-!
# What a run leaves behind

A run works out all of its text before it writes any of it. So a run that fails over its source
shows the failure and leaves the folder as it was, whichever step fails; and a run that writes a
file puts there the text that it would show otherwise, and changes no other place.
-/

namespace SchemaLang.Command

/-! ## The text of an action -/

/--
The failures of an action over a source, by the step that fails. Definitions are put in order for
generated code and for a summary only.
-/
inductive Action.Fails (source : String) : Action → Failure → Prop
  | compiling {action : Action} {error : SourceError} (herror : compile source = .error error) :
      Fails source action (.source error)
  | ordering {action : Action} {definitions : List Definition} {error : ResolveError}
      (hcompile : compile source = .ok definitions)
      (haction : ∀ output, action ≠ .interchange output)
      (herror : (SchemaIndex.ofDefinitions definitions).dependencyOrder = .error error) :
      Fails source action (.code (.resolve error))
  | describing {definitions : List Definition} {error : ResolveError}
      (hcompile : compile source = .ok definitions)
      (herror : Report.describe definitions = .error error) :
      Fails source .summary (.code (.resolve error))
  | generating {output module : Option String} {definitions : List Definition} {error : CodeError}
      (hcompile : compile source = .ok definitions)
      (herror : Code.fileOf module definitions = .error error) :
      Fails source (.generate output module) (.code error)

variable {source : String} {failure : Failure} {action : Action}

theorem definitionsOf_eq_error_iff :
    definitionsOf source = .error failure ↔
      ∃ error, compile source = .error error ∧ failure = .source error := by
  cases hcompile : compile source <;> simp [definitionsOf, hcompile, eq_comm]

theorem definitionsOf_eq_ok_iff {definitions : List Definition} :
    definitionsOf source = .ok definitions ↔ compile source = .ok definitions := by
  cases hcompile : compile source <;> simp [definitionsOf, hcompile]

theorem describe_of_unordered {definitions : List Definition} {error : ResolveError}
    (h : (SchemaIndex.ofDefinitions definitions).dependencyOrder = .error error) :
    Report.describe definitions = .error error := by
  rw [Report.describe, h]
  rfl

theorem fileOf_of_unordered {module : Option String} {definitions : List Definition}
    {error : ResolveError}
    (h : (SchemaIndex.ofDefinitions definitions).dependencyOrder = .error error) :
    Code.fileOf module definitions = .error (.resolve error) := by
  rw [Code.fileOf, h]
  rfl

/-- An action has no text exactly if one of its steps fails. -/
theorem text_eq_error_iff : action.text source = .error failure ↔ action.Fails source failure := by
  rw [Action.text, bind_eq_error, definitionsOf_eq_error_iff]
  simp only [definitionsOf_eq_ok_iff]
  constructor
  · rintro (⟨error, herror, rfl⟩ | ⟨definitions, hcompile, hstep⟩)
    · exact .compiling herror
    · cases action with
      | interchange output => cases hstep
      | generate output module =>
        cases hfile : Code.fileOf module definitions with
        | ok file => simp [hfile, pure, Except.pure] at hstep
        | error error =>
          simp only [hfile, Except.error.injEq] at hstep
          exact hstep ▸ .generating hcompile hfile
      | summary =>
        cases hsummary : Report.describe definitions with
        | ok summary => simp [hsummary, Failure.ofResolve] at hstep
        | error error =>
          simp only [hsummary, Failure.ofResolve, Except.error.injEq] at hstep
          exact hstep ▸ .describing hcompile hsummary
  · intro hfails
    cases hfails with
    | compiling herror => exact .inl ⟨_, herror, rfl⟩
    | ordering hcompile haction herror =>
      refine .inr ⟨_, hcompile, ?_⟩
      cases action with
      | interchange output => exact absurd rfl (haction output)
      | generate output module => simp [fileOf_of_unordered herror]
      | summary => simp [describe_of_unordered herror, Failure.ofResolve]
    | describing hcompile herror => exact .inr ⟨_, hcompile, by simp [herror, Failure.ofResolve]⟩
    | generating hcompile herror => exact .inr ⟨_, hcompile, by simp [herror]⟩

/-- An action that shows its text instead of writing it to a file. -/
def Action.toStandardOutput : Action → Action
  | interchange _ => interchange none
  | generate _ module => generate none module
  | summary => summary

@[simp]
theorem output?_toStandardOutput (action : Action) : action.toStandardOutput.output? = none := by
  cases action <;> rfl

@[simp]
theorem text_toStandardOutput (action : Action) (source : String) :
    action.toStandardOutput.text source = action.text source := by
  cases action <;> rfl

/-! ## Runs -/

/-- A step of a run that gives a value is followed by what comes after it. -/
theorem run_bind_of_run {σ α β : Type} {step : StateM σ α} {next : α → StateM σ β} {state after : σ}
    {value : α} (h : step.run state = (value, after)) :
    (step >>= next).run state = (next value).run after := by
  rw [StateT.run_bind, h]
  rfl

/-- A command that shows its text instead of writing it to a file. -/
def Invocation.toStandardOutput (invocation : Invocation) : Invocation :=
  { invocation with action := invocation.action.toStandardOutput }

namespace Folder

variable {folder : Folder} {invocation : Invocation} {path text : String}

theorem run_read {result : Except FileError String} (h : folder.readFile path = result) :
    (access.read path).run folder = (result, folder) := by
  subst h
  rfl

theorem run_write (folder : Folder) (path text : String) :
    (access.write path text).run folder =
      match folder.writeFile path text with
      | .ok written => (.ok (), written)
      | .error error => (.error error, folder) := by
  have hget : (get : StateM Folder Folder).run folder = (folder, folder) := rfl
  simp only [access]
  rw [run_bind_of_run hget]
  cases folder.writeFile path text <;> rfl

theorem run_of_failure (hread : folder.readFile invocation.input = .ok source)
    (htext : invocation.action.text source = .error failure) :
    (invocation.run access).run folder = (invocation.failed source failure, folder) := by
  rw [Invocation.run, run_bind_of_run (run_read hread)]
  dsimp only
  rw [htext]
  rfl

theorem run_of_no_output (hread : folder.readFile invocation.input = .ok source)
    (htext : invocation.action.text source = .ok text)
    (houtput : invocation.action.output? = none) :
    (invocation.run access).run folder = (⟨0, text ++ "\n", ""⟩, folder) := by
  rw [Invocation.run, run_bind_of_run (run_read hread)]
  dsimp only
  rw [htext, houtput]
  rfl

theorem run_of_output (hread : folder.readFile invocation.input = .ok source)
    (htext : invocation.action.text source = .ok text)
    (houtput : invocation.action.output? = some path) :
    (invocation.run access).run folder =
      match folder.writeFile path text with
      | .ok written => (⟨0, "Written to " ++ path ++ "\n", ""⟩, written)
      | .error error => (invocation.failed source (.output error), folder) := by
  rw [Invocation.run, run_bind_of_run (run_read hread)]
  dsimp only
  rw [htext, houtput]
  dsimp only
  rw [StateT.run_bind, run_write]
  cases folder.writeFile path text <;> rfl

/-- A run that cannot write its file fails and leaves the folder as it was. -/
theorem run_of_unwritable (hread : folder.readFile invocation.input = .ok source)
    (htext : invocation.action.text source = .ok text)
    (houtput : invocation.action.output? = some path)
    (hpath : ∀ place, ¬folder.Writable path place) :
    ∃ error, (invocation.run access).run folder =
      (invocation.failed source (.output error), folder) := by
  rw [run_of_output hread htext houtput]
  cases hwrite : folder.writeFile path text with
  | ok written =>
    obtain ⟨place, hplace, -⟩ := writeFile_eq_ok_iff.1 hwrite
    exact absurd hplace (hpath place)
  | error error => exact ⟨error, rfl⟩

/--
A command over a readable source fails cleanly. If a step of its action fails, the run has code 1,
shows the report of that failure and nothing else, and leaves the folder as it was. Otherwise there
is a text that the command shows if it is not to write a file; and where a file can be written, the
run has code 0, the file holds that text, and what stood at any other place stands there still.
-/
theorem run_clean {folder : Folder} {invocation : Invocation} {source : String}
    (hread : folder.readFile invocation.input = .ok source) :
    (∀ failure, invocation.action.Fails source failure →
      (invocation.run access).run folder =
        (⟨1, "", Report.render source invocation.input failure ++ "\n"⟩, folder)) ∧
    ((¬∃ failure, invocation.action.Fails source failure) →
      ∃ text,
        (invocation.toStandardOutput.run access).run folder = (⟨0, text ++ "\n", ""⟩, folder) ∧
        (invocation.action.output? = none →
          (invocation.run access).run folder = (⟨0, text ++ "\n", ""⟩, folder)) ∧
        ∀ path place, invocation.action.output? = some path → folder.Writable path place →
          ∃ written,
            (invocation.run access).run folder =
              (⟨0, "Written to " ++ path ++ "\n", ""⟩, written) ∧
            written.readFile path = .ok text ∧
            ∀ other, other ≠ place → written.entry? other = folder.entry? other) := by
  constructor
  · intro failure hfails
    exact run_of_failure hread (text_eq_error_iff.2 hfails)
  · intro hnone
    obtain ⟨text, htext⟩ : ∃ text, invocation.action.text source = .ok text := by
      cases htext : invocation.action.text source with
      | ok text => exact ⟨text, rfl⟩
      | error failure => exact absurd ⟨failure, text_eq_error_iff.1 htext⟩ hnone
    have hshown : invocation.toStandardOutput.action.text source = .ok text := by
      rw [Invocation.toStandardOutput, text_toStandardOutput, htext]
    refine ⟨text, run_of_no_output hread hshown (output?_toStandardOutput _),
      run_of_no_output hread htext, ?_⟩
    intro path place houtput hpath
    refine ⟨folder.withEntry place (.file text.toUTF8), ?_, hpath.readFile text,
      fun other hne ↦ hpath.entry?_withEntry _ hne⟩
    rw [run_of_output hread htext houtput, hpath.writeFile text]

/--
A schema that refers to itself. It has no place in an order, so no code is written; its definitions
are written, over a path that leaves a folder and comes back.
-/
theorem run_clean_self_reference :
    let source := "schema A \x7b self A \x7d"
    let folder : Folder := ⟨[(["a.sia"], .file source.toUTF8), (["out"], .folder)]⟩
    let code : Invocation := ⟨"a.sia", .generate (some "out/a.rs") none⟩
    let interchange : Invocation := ⟨"a.sia", .interchange (some "out/../out/a.json")⟩
    folder.readFile "a.sia" = .ok source ∧
    (code.run access).run folder =
      (⟨1, "", "Error in a.sia: Recursive nesting of A -> A is not allowed\n"⟩, folder) ∧
    ∃ text written,
      (interchange.toStandardOutput.run access).run folder = (⟨0, text ++ "\n", ""⟩, folder) ∧
      (interchange.run access).run folder =
        (⟨0, "Written to out/../out/a.json\n", ""⟩, written) ∧
      written.readFile "out/../out/a.json" = .ok text ∧
      ∀ other, other ≠ ["out", "a.json"] → written.entry? other = folder.entry? other := by
  intro source folder code interchange
  have hread : folder.readFile "a.sia" = .ok source := by decide +kernel
  have hcompile : compile source = .ok [.schema ⟨"A", [{ name := "self", type := "A" }]⟩] := by
    decide +kernel
  have horder : (SchemaIndex.ofDefinitions
      [.schema ⟨"A", [{ name := "self", type := "A" }]⟩]).dependencyOrder =
        .error (.cyclicReference ["A", "A"]) := by cbv
  have hwritable : folder.Writable "out/../out/a.json" ["out", "a.json"] :=
    ⟨by decide +kernel, by decide +kernel, by decide +kernel⟩
  have hnone : ¬∃ failure, interchange.action.Fails source failure := by
    rintro ⟨failure, ⟨herror⟩ | ⟨-, haction, -⟩⟩
    · cases hcompile.symm.trans herror
    · exact haction _ rfl
  have hreadCode : folder.readFile code.input = .ok source := hread
  have hreadInterchange : folder.readFile interchange.input = .ok source := hread
  obtain ⟨hfails, -⟩ := run_clean hreadCode
  obtain ⟨-, hsucceeds⟩ := run_clean hreadInterchange
  obtain ⟨text, hshown, -, hwritten⟩ := hsucceeds hnone
  obtain ⟨written, hrun, htext, hothers⟩ := hwritten _ _ rfl hwritable
  refine ⟨hread, ?_, text, written, hshown, hrun, htext, hothers⟩
  have hmessage : Report.render source "a.sia" (.code (.resolve (.cyclicReference ["A", "A"]))) =
      "Error in a.sia: Recursive nesting of A -> A is not allowed" := by decide +kernel
  have hcode : ∀ output, code.action ≠ .interchange output := by
    intro output houtput
    cases houtput
  rw [hfails _ (.ordering hcompile hcode horder), hmessage]
  rfl

end Folder

end SchemaLang.Command
