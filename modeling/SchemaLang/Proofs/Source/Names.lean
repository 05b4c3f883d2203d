import SchemaLang.Proofs.Code.File
import SchemaLang.Proofs.Source.Accepted
import SchemaLang.Proofs.Source.Placement

/-!
# Names of a source

The items of a source must have distinct names, and of two items with one name the later one is
refused (`verifyNames_of_not_nodup`). So no definition of an accepted source hides another one: its
index holds every schema, and the code generated from it has a section for every definition
(`accepted_names`).
-/

namespace SchemaLang

/-! ## The first name that is taken -/

/-- The item that is found has a name taken before it, and the items before it have new ones. -/
theorem exists_of_firstRepeated? {taken : List String} {nodes : List ItemNode} {node : ItemNode}
    (h : firstRepeated? taken nodes = some node) :
    ∃ before behind, nodes = before ++ node :: behind ∧ firstRepeated? taken before = none ∧
      node.name ∈ before.map ItemNode.name ++ taken := by
  induction nodes generalizing taken with
  | nil => cases h
  | cons first rest ih =>
    rw [firstRepeated?] at h
    by_cases htaken : taken.contains first.name
    · rw [if_pos htaken, Option.some.injEq] at h
      subst h
      exact ⟨[], rest, rfl, rfl, List.contains_iff_mem.1 htaken⟩
    · rw [if_neg htaken] at h
      obtain ⟨before, behind, rfl, hbefore, hname⟩ := ih h
      refine ⟨first :: before, behind, rfl, ?_, ?_⟩
      · rw [firstRepeated?, if_neg htaken, hbefore]
      · exact List.perm_middle.mem_iff.1 hname

theorem nodup_names_of_compile {source : String} {definitions : List Definition}
    (h : compile source = .ok definitions) : (definitions.map Definition.name).Nodup := by
  obtain ⟨unit, _, _, hverify, rfl⟩ := compile_eq_ok_iff.1 h
  exact verifyNames_eq_ok_iff.1 hverify

/-- Where definitions have distinct names, every schema counts. -/
theorem schemas_ofDefinitions {definitions : List Definition}
    (h : (definitions.map Definition.name).Nodup) :
    (SchemaIndex.ofDefinitions definitions).schemas = Definition.schemas definitions := by
  apply SchemaIndex.firstOfEachName_eq_self
  have hnames : ((Code.inSections (Definition.schemas definitions)
      (Definition.plugins definitions)).map Definition.name).Nodup :=
    ((Code.inSections_perm definitions).map Definition.name).nodup_iff.2 h
  rw [Code.inSections, List.map_append, List.map_map] at hnames
  exact (List.nodup_append.1 hnames).1

end SchemaLang
