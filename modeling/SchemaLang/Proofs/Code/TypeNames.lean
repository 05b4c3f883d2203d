import SchemaLang.Proofs.Code.File
import SchemaLang.Proofs.Resolve.Default
import SchemaLang.Proofs.Source.Names
import SchemaLang.Proofs.Source.Words

/-!
# Names of generated types

The types generated from an accepted source are named after its schemas and its plugins, with each
name capitalized. Distinct names can have one capitalized form, and two plugins can go by one name,
so the names of the types may clash. They do so exactly where two capitalized forms are the same,
since escaping a keyword never makes two of them equal (`nodup_typeNames_iff`). Names that are told
apart regardless of letter case and of underscores do not clash.
-/

namespace SchemaLang.Code

/-! ## Names of types -/

/-- A name is kept, or it gets an underscore at its end. -/
theorem escapeKeyword_eq_or (name : String) :
    escapeKeyword name = name ∨ name ∈ keywords ∧ escapeKeyword name = name ++ "_" := by
  unfold escapeKeyword
  split_ifs with hkeyword
  · exact .inr ⟨List.contains_iff_mem.1 hkeyword, rfl⟩
  · exact .inl rfl

theorem underscore_mem_append (name : String) : '_' ∈ (name ++ "_").toList := by
  rw [String.toList_append]
  exact List.mem_append_right _ List.mem_cons_self

/-- Without an underscore in either, two names are escaped to the same one only if they are. -/
theorem eq_of_escapeKeyword_eq {name other : String} (hname : '_' ∉ name.toList)
    (hother : '_' ∉ other.toList) (h : escapeKeyword name = escapeKeyword other) :
    name = other := by
  rcases escapeKeyword_eq_or name with hkept | ⟨-, hescaped⟩
  · rcases escapeKeyword_eq_or other with hkept' | ⟨-, hescaped'⟩
    · rw [← hkept, h, hkept']
    · rw [hkept, hescaped'] at h
      exact absurd (underscore_mem_append other) (h ▸ hname)
  · rcases escapeKeyword_eq_or other with hkept' | ⟨-, hescaped'⟩
    · rw [hkept', hescaped] at h
      exact absurd (underscore_mem_append name) (h ▸ hother)
    · rw [hescaped, hescaped'] at h
      exact String.append_left_inj _ |>.1 h

section Words

variable {name : String} (h : Text.IsWordText name.toList)

include h

theorem underscore_notMem_upperCamel : '_' ∉ (Text.upperCamel name).toList := by
  intro hmem
  have halpha := Text.isAlphanum_of_mem_upperCamel h hmem
  exact absurd halpha (by decide)

theorem typeName_eq_typeName_iff {other : String} (hother : Text.IsWordText other.toList) :
    typeName name = typeName other ↔ Text.upperCamel name = Text.upperCamel other := by
  constructor
  · intro heq
    exact eq_of_escapeKeyword_eq (underscore_notMem_upperCamel h)
      (underscore_notMem_upperCamel hother) heq
  · intro heq
    rw [typeName, heq, typeName]

/-- A type has the same letters and digits as the name that it is generated from. -/
theorem plain_typeName : Text.plain (typeName name) = Text.plain name := by
  rw [← Text.plain_upperCamel h]
  rcases escapeKeyword_eq_or (Text.upperCamel name) with hkept | ⟨-, hescaped⟩
  · rw [typeName, hkept]
  · rw [typeName, hescaped, Text.plain, String.toList_append, List.filter_append]
    exact congrArg (List.map Char.toLower) (List.append_nil _)

end Words

/-- A name that is no keyword and has no underscore is only generated by capitalizing. -/
theorem typeName_eq_iff {name target : String} (hunderscore : '_' ∉ target.toList)
    (hkeyword : target ∉ keywords) : typeName name = target ↔ Text.upperCamel name = target := by
  rcases escapeKeyword_eq_or (Text.upperCamel name) with hkept | ⟨hmem, hescaped⟩
  · rw [typeName, hkept]
  · rw [typeName, hescaped]
    constructor
    · rintro rfl
      exact absurd (underscore_mem_append _) hunderscore
    · rintro rfl
      exact absurd hmem hkeyword

/-- A generated name starts with no lower case letter. -/
theorem isLower_head_typeName {name : String} (h : Text.IsWordText name.toList) {c : Char}
    (hc : (typeName name).toList.head? = some c) : c.isLower = false := by
  rcases escapeKeyword_eq_or (Text.upperCamel name) with hkept | ⟨-, hescaped⟩
  · rw [typeName, hkept] at hc
    exact Text.isLower_head_upperCamel h hc
  · rw [typeName, hescaped, String.toList_append] at hc
    cases hhead : (Text.upperCamel name).toList with
    | nil =>
      rw [hhead] at hc
      cases hc
      decide
    | cons first rest =>
      rw [hhead] at hc
      exact Text.isLower_head_upperCamel h (by rw [hhead]; exact hc)

theorem isWordText_escapeKeyword {name : String} (h : Text.IsWordText name.toList) :
    Text.IsWordText (escapeKeyword name).toList := by
  rcases escapeKeyword_eq_or name with hkept | ⟨-, hescaped⟩
  · rwa [hkept]
  · rw [hescaped, Text.IsWordText, String.toList_append, List.all_append, h]
    decide

/-- A generated name of a type has no characters but those of words. -/
theorem isWordText_typeName {name : String} (h : Text.IsWordText name.toList) :
    Text.IsWordText (typeName name).toList :=
  isWordText_escapeKeyword (Text.isWordText_upperCamel h)

/-- A generated name of a field or a method has no characters but those of words. -/
theorem isWordText_memberName {name : String} (h : Text.IsWordText name.toList) :
    Text.IsWordText (memberName name).toList :=
  isWordText_escapeKeyword (Text.isWordText_snakeCase h)

/-- A type of primitive values is that of strings, or no text of a word, or in lower case. -/
theorem text_ofPrimitive (type : Primitive) :
    CodeType.ofPrimitive type = .string ∨
      (CodeType.ofPrimitive type).text.toList.all LexemeForm.continuesWord = false ∨
      ∃ c, (CodeType.ofPrimitive type).text.toList.head? = some c ∧ c.isLower = true := by
  cases type <;> first
    | exact .inl rfl
    | exact .inr (.inl (by decide))
    | exact .inr (.inr ⟨_, rfl, by decide⟩)

/-- Of the types of primitive values only that of strings has a name that can be generated. -/
theorem ofPrimitive_eq_string_of_text {type : Primitive} {name : String}
    (h : Text.IsWordText name.toList) (htext : (CodeType.ofPrimitive type).text = typeName name) :
    CodeType.ofPrimitive type = .string := by
  rcases text_ofPrimitive type with hstring | hword | ⟨c, hhead, hlower⟩
  · exact hstring
  · rw [htext, isWordText_typeName h] at hword
    cases hword
  · rw [htext] at hhead
    rw [isLower_head_typeName h hhead] at hlower
    cases hlower

/-! ## Names of a file -/

/-- The names of the types that a file declares. -/
def CodeFile.typeNames (file : CodeFile) : List String :=
  file.structs.map Struct.name ++ file.traits.map Trait.name

/-- The types of a file are those of the schemas that count and of the plugins. -/
theorem typeNames_perm {module : Option String} {definitions : List Definition} {file : CodeFile}
    (h : fileOf module definitions = .ok file) :
    file.typeNames.Perm
      ((inSections (SchemaIndex.ofDefinitions definitions).schemas
        (Definition.plugins definitions)).map fun definition ↦ typeName definition.codeName) := by
  obtain ⟨order, horder, hstructs, htraits, -⟩ := fileOf_eq_ok_iff.1 h
  have hstructNames : order.map (fun schema ↦ typeName schema.name) =
      file.structs.map Struct.name :=
    map_eq_map_of_forall₂ hstructs fun _ _ hstruct ↦ (structOf_eq_ok.1 hstruct).1.symm
  have htraitNames : (Definition.plugins definitions).map (fun plugin ↦ typeName plugin.asName) =
      file.traits.map Trait.name :=
    map_eq_map_of_forall₂ htraits fun _ _ htrait ↦ (traitOf_eq_ok.1 htrait).2.1.symm
  rw [CodeFile.typeNames, ← hstructNames, ← htraitNames, inSections]
  simp only [List.map_append, List.map_map, Function.comp_def, Definition.codeName]
  exact ((SchemaIndex.dependencyOrder_perm horder).map _).append_right _

/-! ## Names of an accepted source -/

section Accepted

variable {source : String} {definitions : List Definition}
  (hcompile : compile source = .ok definitions) {module : Option String} {file : CodeFile}
  (hfile : fileOf module definitions = .ok file)

include hcompile hfile

/-- The types of an accepted source are those of all of its definitions. -/
theorem typeNames_perm_of_compile :
    file.typeNames.Perm (definitions.map fun definition ↦ typeName definition.codeName) := by
  have hperm := typeNames_perm hfile
  rw [schemas_ofDefinitions (nodup_names_of_compile hcompile)] at hperm
  exact hperm.trans ((inSections_perm definitions).map _)

theorem mem_typeNames_iff {target : String} :
    target ∈ file.typeNames ↔
      ∃ definition ∈ definitions, typeName definition.codeName = target := by
  rw [(typeNames_perm_of_compile hcompile hfile).mem_iff, List.mem_map]

theorem nodup_typeNames_iff :
    file.typeNames.Nodup ↔
      (definitions.map fun definition ↦ Text.upperCamel definition.codeName).Nodup := by
  rw [(typeNames_perm_of_compile hcompile hfile).nodup_iff, List.nodup_iff_pairwise_ne,
    List.nodup_iff_pairwise_ne, List.pairwise_map, List.pairwise_map]
  apply List.Pairwise.iff_of_mem
  intro definition other hmem hother
  exact not_congr (typeName_eq_typeName_iff (isWordText_codeName hcompile hmem)
    (isWordText_codeName hcompile hother))

/-- Names that are told apart regardless of letter case and of underscores do not clash. -/
theorem nodup_typeNames_of_plain
    (h : (definitions.map fun definition ↦ Text.plain definition.codeName).Nodup) :
    file.typeNames.Nodup := by
  rw [(typeNames_perm_of_compile hcompile hfile).nodup_iff]
  apply List.Nodup.of_map Text.plain
  simp only [List.map_map, Function.comp_def]
  have hplain : definitions.map (fun definition ↦ Text.plain (typeName definition.codeName)) =
      definitions.map fun definition ↦ Text.plain definition.codeName :=
    List.map_congr_left fun _ hmem ↦ plain_typeName (isWordText_codeName hcompile hmem)
  rwa [hplain]

theorem mem_typeNames_iff_upperCamel {target : String} (hunderscore : '_' ∉ target.toList)
    (hkeyword : target ∉ keywords) :
    target ∈ file.typeNames ↔
      ∃ definition ∈ definitions, Text.upperCamel definition.codeName = target := by
  rw [mem_typeNames_iff hcompile hfile]
  simp only [typeName_eq_iff hunderscore hkeyword]

/--
The names of the types of an accepted source are those of its definitions, capitalized. Two of them
are the same only where two capitalized names are, and never if the names are told apart regardless
of letter case and of underscores. The types that generated code takes for granted are declared in
it again only where a name is capitalized to one of theirs, and of the types of primitive values
this can be only that of strings.
-/
theorem typeNames_of_accepted :
    file.typeNames.Perm (definitions.map fun definition ↦ typeName definition.codeName) ∧
    (file.typeNames.Nodup ↔
      (definitions.map fun definition ↦ Text.upperCamel definition.codeName).Nodup) ∧
    ((definitions.map fun definition ↦ Text.plain definition.codeName).Nodup →
      file.typeNames.Nodup) ∧
    (∀ target ∈ ["String", "Vec", "Option"],
      (target ∈ file.typeNames ↔
        ∃ definition ∈ definitions, Text.upperCamel definition.codeName = target) ∧
      ((∀ definition ∈ definitions, Text.plain definition.codeName ≠ Text.plain target) →
        target ∉ file.typeNames)) ∧
    ∀ type : Primitive, (CodeType.ofPrimitive type).text ∈ file.typeNames →
      CodeType.ofPrimitive type = .string ∧
      ∃ definition ∈ definitions, Text.upperCamel definition.codeName = "String" := by
  have hlibrary : ∀ target ∈ ["String", "Vec", "Option"],
      '_' ∉ target.toList ∧ target ∉ keywords := by
    decide
  have hcapitalized : ∀ target ∈ ["String", "Vec", "Option"], target ∈ file.typeNames ↔
      ∃ definition ∈ definitions, Text.upperCamel definition.codeName = target := by
    intro target htarget
    obtain ⟨hunderscore, hkeyword⟩ := hlibrary target htarget
    exact mem_typeNames_iff_upperCamel hcompile hfile hunderscore hkeyword
  refine ⟨typeNames_perm_of_compile hcompile hfile, nodup_typeNames_iff hcompile hfile,
    nodup_typeNames_of_plain hcompile hfile,
    fun target htarget ↦ ⟨hcapitalized target htarget, ?_⟩, ?_⟩
  · intro hplain hmem
    obtain ⟨definition, hdefinition, rfl⟩ := (mem_typeNames_iff hcompile hfile).1 hmem
    exact hplain definition hdefinition
      (plain_typeName (isWordText_codeName hcompile hdefinition)).symm
  · intro type hmem
    obtain ⟨definition, hdefinition, htext⟩ := (mem_typeNames_iff hcompile hfile).1 hmem
    have hstring : CodeType.ofPrimitive type = .string :=
      ofPrimitive_eq_string_of_text (isWordText_codeName hcompile hdefinition) htext.symm
    rw [hstring] at hmem
    exact ⟨hstring, (hcapitalized "String" List.mem_cons_self).1 hmem⟩

end Accepted

/-- A schema with a string and two plugins, whose names are told apart once they are capitalized. -/
theorem typeNames_of_accepted_plugins :
    ∃ file,
      compile "schema log_in\x7ba string\x7dplugin log.a\x7b\x7dplugin log.b as log_2\x7b\x7d" =
        .ok [.schema ⟨"log_in", [{ name := "a", type := "string" }]⟩,
          .plugin ⟨"log.a", "Log", []⟩, .plugin ⟨"log.b", "log_2", []⟩] ∧
      fileOf none [.schema ⟨"log_in", [{ name := "a", type := "string" }]⟩,
        .plugin ⟨"log.a", "Log", []⟩, .plugin ⟨"log.b", "log_2", []⟩] = .ok file ∧
      file.typeNames = ["LogIn", "Log", "Log2"] ∧ file.typeNames.Nodup ∧
      "String" ∉ file.typeNames := by
  have hcompile :
      compile "schema log_in\x7ba string\x7dplugin log.a\x7b\x7dplugin log.b as log_2\x7b\x7d" =
        .ok [.schema ⟨"log_in", [{ name := "a", type := "string" }]⟩,
          .plugin ⟨"log.a", "Log", []⟩, .plugin ⟨"log.b", "log_2", []⟩] := by
    decide +kernel
  have hfile : fileOf none [.schema ⟨"log_in", [{ name := "a", type := "string" }]⟩,
      .plugin ⟨"log.a", "Log", []⟩, .plugin ⟨"log.b", "log_2", []⟩] =
      .ok ⟨none, [⟨"LogIn", [⟨[.encodedAs .string8], "a", .string, .emptyString⟩]⟩],
        [⟨"log.a", "Log", []⟩, ⟨"log.b", "Log2", []⟩]⟩ := by
    apply fileOf_eq_ok_iff.2
    refine ⟨[⟨"log_in", [{ name := "a", type := "string" }]⟩], by cbv, .cons ?_ .nil,
      .cons (by decide +kernel) (.cons (by decide +kernel) .nil), rfl⟩
    refine structOf_eq_ok.2 ⟨by decide +kernel, .cons ?_ .nil⟩
    rw [structField, defaultExpression, SchemaIndex.defaultOf_of_ownDefault? rfl]
    decide +kernel
  obtain ⟨-, -, hnodup, hlibrary, -⟩ := typeNames_of_accepted hcompile hfile
  exact ⟨_, hcompile, hfile, rfl, hnodup (by decide +kernel),
    (hlibrary "String" List.mem_cons_self).2 (by decide +kernel)⟩

/-- Two names with one capitalized form, and the name of a type that the code takes for granted. -/
theorem typeNames_clash :
    (∃ file,
      compile "schema a_b \x7b\x7d schema aB \x7b\x7d" =
        .ok [.schema ⟨"a_b", []⟩, .schema ⟨"aB", []⟩] ∧
      fileOf none [.schema ⟨"a_b", []⟩, .schema ⟨"aB", []⟩] = .ok file ∧
      file.typeNames = ["AB", "AB"] ∧ ¬file.typeNames.Nodup) ∧
    ∃ file,
      compile "schema string \x7b\x7d schema A \x7bx string\x7d" =
        .ok [.schema ⟨"string", []⟩, .schema ⟨"A", [{ name := "x", type := "string" }]⟩] ∧
      fileOf none [.schema ⟨"string", []⟩, .schema ⟨"A", [{ name := "x", type := "string" }]⟩] =
        .ok file ∧
      "String" ∈ file.typeNames ∧
      ∃ struct ∈ file.structs, ∃ part ∈ struct.fields, part.type.text = "String" := by
  have hclash : fileOf none [.schema ⟨"a_b", []⟩, .schema ⟨"aB", []⟩] =
      .ok ⟨none, [⟨"AB", []⟩, ⟨"AB", []⟩], []⟩ := by
    apply fileOf_eq_ok_iff.2
    exact ⟨[⟨"a_b", []⟩, ⟨"aB", []⟩], by cbv,
      .cons (by decide +kernel) (.cons (by decide +kernel) .nil), .nil, rfl⟩
  have hstring :
      fileOf none [.schema ⟨"string", []⟩, .schema ⟨"A", [{ name := "x", type := "string" }]⟩] =
        .ok ⟨none, [⟨"String", []⟩,
          ⟨"A", [⟨[.encodedAs .string8], "x", .string, .emptyString⟩]⟩], []⟩ := by
    apply fileOf_eq_ok_iff.2
    refine ⟨[⟨"string", []⟩, ⟨"A", [{ name := "x", type := "string" }]⟩], by cbv,
      .cons (by decide +kernel) (.cons ?_ .nil), .nil, rfl⟩
    refine structOf_eq_ok.2 ⟨by decide +kernel, .cons ?_ .nil⟩
    rw [structField, defaultExpression, SchemaIndex.defaultOf_of_ownDefault? rfl]
    decide +kernel
  exact ⟨⟨_, by decide +kernel, hclash, rfl, by decide⟩,
    ⟨_, by decide +kernel, hstring, by decide, _, List.mem_cons_of_mem _ List.mem_cons_self,
      _, List.mem_cons_self, rfl⟩⟩

end SchemaLang.Code
