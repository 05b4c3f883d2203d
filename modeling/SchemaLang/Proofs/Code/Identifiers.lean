import SchemaLang.Proofs.Code.TypeNames
import SchemaLang.Proofs.Source.Fields

/-!
# Identifiers of generated code

An identifier is a word that starts with a letter or an underscore and is not reserved, neither in
use nor for later (`IsIdentifier`). The names generated from an accepted source are words, and none
of them is reserved in use. Those of types are identifiers exactly if the first letter or digit of
the name that they come from is a letter; those of fields, methods and parameters must besides not
be one of the words that are reserved for later, which are not escaped
(`identifiers_of_accepted`).
-/

namespace SchemaLang

/-- The names of a method and of its parameters. -/
def Method.memberNames (method : Method) : List String :=
  method.name :: method.fields.toList.map Field.name

/-- The names that the members of a type are generated from: fields, or methods and parameters. -/
def Definition.memberNames : Definition → List String
  | schema s => s.fields.map Field.name
  | plugin p => p.methods.flatMap Method.memberNames

namespace Code

/-! ## Identifiers -/

/-- The words that generated code reserves, those for later use included. -/
def reservedWords : List String :=
  ["Self", "abstract", "as", "async", "await", "become", "box", "break", "const", "continue",
    "crate", "do", "dyn", "else", "enum", "extern", "false", "final", "fn", "for", "if", "impl",
    "in", "let", "loop", "macro", "match", "mod", "move", "mut", "override", "priv", "pub", "ref",
    "return", "self", "static", "struct", "super", "trait", "true", "try", "type", "typeof",
    "unsafe", "unsized", "use", "virtual", "where", "while", "yield"]

/-- The words that generated code reserves for later use. -/
def wordsForLater : List String :=
  ["abstract", "become", "box", "do", "final", "macro", "override", "priv", "try", "typeof",
    "unsized", "virtual", "yield"]

/-- A word that starts with a letter or an underscore and is not reserved. -/
structure IsIdentifier (name : String) : Prop where
  starts : ∃ first rest, name.toList = first :: rest ∧ (first.isAlpha = true ∨ first = '_')
  word : ∀ c ∈ name.toList, c.isAlphanum = true ∨ c = '_'
  free : name ∉ reservedWords

/-- Whether the first letter or digit of a name is a letter. -/
def startsWithLetter (name : String) : Bool :=
  (name.toList.find? Char.isAlphanum).any Char.isAlpha

/--
The reserved words are those that are escaped and those for later use, and none is both. None has an
underscore, those that are escaped are not empty, and those for later use start with lower case
letters.
-/
theorem reservedWords_table :
    reservedWords.Perm (keywords ++ wordsForLater) ∧
    (∀ word ∈ keywords, word ∉ wordsForLater ∧ word.toList.head?.isSome = true) ∧
    (∀ word ∈ reservedWords, '_' ∉ word.toList) ∧
    ∀ word ∈ wordsForLater, word.toList.head?.any Char.isLower = true := by
  decide +kernel

theorem mem_reservedWords_iff {name : String} :
    name ∈ reservedWords ↔ name ∈ keywords ∨ name ∈ wordsForLater := by
  rw [reservedWords_table.1.mem_iff, List.mem_append]

theorem append_underscore_notMem (name : String) : name ++ "_" ∉ reservedWords := by
  obtain ⟨-, -, hunderscore, -⟩ := reservedWords_table
  exact fun hmem ↦ hunderscore _ hmem (underscore_mem_append name)

/-- An escaped name is reserved only if it is a word for later use. -/
theorem escapeKeyword_notMem_reservedWords_iff {name : String} :
    escapeKeyword name ∉ reservedWords ↔ name ∉ wordsForLater := by
  obtain ⟨-, hkeywords, -, -⟩ := reservedWords_table
  by_cases hkeyword : name ∈ keywords
  · rw [escapeKeyword, if_pos (List.contains_iff_mem.2 hkeyword)]
    exact iff_of_true (append_underscore_notMem name) (hkeywords name hkeyword).1
  · rw [escapeKeyword, if_neg (mt List.contains_iff_mem.1 hkeyword), mem_reservedWords_iff,
      or_iff_right hkeyword]

/-- No escaped name is a keyword. -/
theorem escapeKeyword_notMem_keywords (name : String) : escapeKeyword name ∉ keywords := by
  by_cases hkeyword : name ∈ keywords
  · rw [escapeKeyword, if_pos (List.contains_iff_mem.2 hkeyword)]
    exact fun hmem ↦ append_underscore_notMem name (mem_reservedWords_iff.2 (.inl hmem))
  · rwa [escapeKeyword, if_neg (mt List.contains_iff_mem.1 hkeyword)]

theorem head?_escapeKeyword (name : String) :
    (escapeKeyword name).toList.head? = name.toList.head? := by
  obtain ⟨-, hkeywords, -, -⟩ := reservedWords_table
  rcases escapeKeyword_eq_or name with hkept | ⟨hkeyword, hescaped⟩
  · rw [hkept]
  · obtain ⟨c, hc⟩ := Option.isSome_iff_exists.1 (hkeywords name hkeyword).2
    rw [hescaped, String.toList_append, List.head?_append, hc, Option.some_or]

theorem continuesWord_iff {c : Char} :
    LexemeForm.continuesWord c = true ↔ c.isAlphanum = true ∨ c = '_' := by
  rw [LexemeForm.continuesWord, Bool.or_eq_true, decide_eq_true_iff]

/--
A name of word characters is escaped to an identifier exactly if it starts with a letter or an
underscore and is no word for later use.
-/
theorem isIdentifier_escapeKeyword_iff {name : String} (h : Text.IsWordText name.toList) :
    IsIdentifier (escapeKeyword name) ↔
      (∃ c, name.toList.head? = some c ∧ (c.isAlpha = true ∨ c = '_')) ∧
        name ∉ wordsForLater := by
  rw [← head?_escapeKeyword, ← escapeKeyword_notMem_reservedWords_iff]
  constructor
  · rintro ⟨⟨first, rest, hsplit, hfirst⟩, -, hfree⟩
    exact ⟨⟨first, by rw [hsplit, List.head?_cons], hfirst⟩, hfree⟩
  · rintro ⟨⟨first, hhead, hfirst⟩, hfree⟩
    obtain ⟨rest, hsplit⟩ := List.head?_eq_some_iff.1 hhead
    refine ⟨⟨first, rest, hsplit, hfirst⟩, fun c hc ↦ ?_, hfree⟩
    exact continuesWord_iff.1 (List.all_eq_true.1 (isWordText_escapeKeyword h) c hc)

/-- A name that starts with the first letter or digit of another one, in some letter case. -/
theorem exists_head?_iff_startsWithLetter {name target : String} {change : Char → Char}
    (hchange : ∀ c : Char, c.isAlphanum = true →
      (change c).isAlphanum = true ∧ (change c).isAlpha = c.isAlpha)
    (h : target.toList.head? = (name.toList.find? Char.isAlphanum).map change) :
    (∃ c, target.toList.head? = some c ∧ (c.isAlpha = true ∨ c = '_')) ↔
      startsWithLetter name = true := by
  rw [h, startsWithLetter, Option.any_eq_true]
  constructor
  · rintro ⟨c, hc, hstart⟩
    obtain ⟨d, hd, rfl⟩ := Option.map_eq_some_iff.1 hc
    obtain ⟨halphanum, halpha⟩ := hchange d (List.find?_some hd)
    refine ⟨d, hd, halpha ▸ hstart.resolve_right fun hunderscore ↦ ?_⟩
    rw [hunderscore] at halphanum
    exact absurd halphanum (by decide)
  · rintro ⟨d, hd, hletter⟩
    obtain ⟨-, halpha⟩ := hchange d (List.find?_some hd)
    exact ⟨change d, by rw [hd, Option.map_some], .inl (halpha.trans hletter)⟩

section Words

variable {name : String} (h : Text.IsWordText name.toList)

include h

/-- The name of a type is an identifier if the name it comes from starts with a letter. -/
theorem isIdentifier_typeName_iff :
    IsIdentifier (typeName name) ↔ startsWithLetter name = true := by
  obtain ⟨-, -, -, hlower⟩ := reservedWords_table
  have hfree : Text.upperCamel name ∉ wordsForLater := by
    intro hmem
    obtain ⟨c, hc, hcLower⟩ := (Option.any_eq_true _ _).1 (hlower _ hmem)
    rw [Text.isLower_head_upperCamel h hc] at hcLower
    cases hcLower
  rw [typeName, isIdentifier_escapeKeyword_iff (Text.isWordText_upperCamel h),
    and_iff_left hfree]
  exact exists_head?_iff_startsWithLetter
    (fun c hc ↦ ⟨Text.isAlphanum_toUpper hc, Text.isAlpha_toUpper hc⟩) (Text.head?_upperCamel h)

/-- The name of a member must also not become a word for later use. -/
theorem isIdentifier_memberName_iff : IsIdentifier (memberName name) ↔
    startsWithLetter name = true ∧ Text.snakeCase name ∉ wordsForLater := by
  rw [memberName, isIdentifier_escapeKeyword_iff (Text.isWordText_snakeCase h)]
  exact and_congr_left' (exists_head?_iff_startsWithLetter
    (fun c hc ↦ ⟨Text.isAlphanum_toLower hc, Text.isAlpha_toLower hc⟩) (Text.head?_snakeCase h))

end Words

/-! ## Names of members -/

/-- The names of the fields of a struct. -/
def Struct.memberNames (struct : Struct) : List String := struct.fields.map StructField.name

/-- The names of a method of a trait and of its parameters. -/
def TraitMethod.memberNames (method : TraitMethod) : List String :=
  method.name :: method.parameters.map Prod.fst

/-- The names of the methods of a trait and of their parameters. -/
def Trait.memberNames (trait : Trait) : List String :=
  trait.methods.flatMap TraitMethod.memberNames

/-- The names of fields, methods and parameters in a file. -/
def CodeFile.memberNames (file : CodeFile) : List String :=
  file.structs.flatMap Struct.memberNames ++ file.traits.flatMap Trait.memberNames

section Members

variable {index : SchemaIndex}

theorem memberNames_of_structOf {schema : Schema} {struct : Struct}
    (h : structOf index schema = .ok struct) :
    (Definition.schema schema).memberNames.map memberName = struct.memberNames := by
  obtain ⟨-, hfields⟩ := structOf_eq_ok.1 h
  have hnames : schema.fields.map (fun field ↦ memberName field.name) =
      struct.fields.map StructField.name :=
    map_eq_map_of_forall₂ hfields fun _ _ hpart ↦ (structField_eq_ok.1 hpart).2.1.symm
  rw [Definition.memberNames, Struct.memberNames, List.map_map, ← hnames, Function.comp_def]

theorem memberNames_of_traitMethod {method : Method} {part : TraitMethod}
    (h : traitMethod index method = .ok part) :
    method.memberNames.map memberName = part.memberNames := by
  obtain ⟨-, hname, hparameters, -⟩ := traitMethod_eq_ok.1 h
  have hrest : method.fields.toList.map (fun field ↦ memberName field.name) =
      part.parameters.map Prod.fst :=
    map_eq_map_of_forall₂ hparameters fun _ _ hparameter ↦ (parameter_eq_ok.1 hparameter).1.symm
  rw [Method.memberNames, TraitMethod.memberNames, List.map_cons, ← hname, List.map_map, ← hrest,
    Function.comp_def]

theorem memberNames_of_traitOf {plugin : Plugin} {trait : Trait}
    (h : traitOf index plugin = .ok trait) :
    (Definition.plugin plugin).memberNames.map memberName = trait.memberNames := by
  have hmethods : plugin.methods.map (fun method ↦ method.memberNames.map memberName) =
      trait.methods.map TraitMethod.memberNames :=
    map_eq_map_of_forall₂ (traitOf_eq_ok.1 h).2.2 fun _ _ hmethod ↦
      memberNames_of_traitMethod hmethod
  rw [Definition.memberNames, Trait.memberNames, List.map_flatMap, List.flatMap_def, hmethods,
    ← List.flatMap_def]

end Members

/-- The members of a file are those of the schemas that count and of the plugins. -/
theorem memberNames_perm {module : Option String} {definitions : List Definition}
    {file : CodeFile} (h : fileOf module definitions = .ok file) :
    file.memberNames.Perm
      (((inSections (SchemaIndex.ofDefinitions definitions).schemas
        (Definition.plugins definitions)).flatMap Definition.memberNames).map memberName) := by
  obtain ⟨order, horder, hstructs, htraits, -⟩ := fileOf_eq_ok_iff.1 h
  have hstructNames : order.map (fun schema ↦
      (Definition.schema schema).memberNames.map memberName) =
        file.structs.map Struct.memberNames :=
    map_eq_map_of_forall₂ hstructs fun _ _ hstruct ↦ memberNames_of_structOf hstruct
  have htraitNames : (Definition.plugins definitions).map (fun plugin ↦
      (Definition.plugin plugin).memberNames.map memberName) =
        file.traits.map Trait.memberNames :=
    map_eq_map_of_forall₂ htraits fun _ _ htrait ↦ memberNames_of_traitOf htrait
  rw [CodeFile.memberNames, List.flatMap_def, List.flatMap_def, ← hstructNames, ← htraitNames,
    ← List.flatMap_def, ← List.flatMap_def, inSections, List.flatMap_append, List.map_append,
    List.map_flatMap, List.map_flatMap, List.flatMap_map, List.flatMap_map]
  exact ((SchemaIndex.dependencyOrder_perm horder).flatMap_right _).append_right _

/-! ## Names of an accepted source -/

section Accepted

variable {source : String} {definitions : List Definition}
  (hcompile : compile source = .ok definitions)

include hcompile

/-- The members of an accepted source are generated from words. -/
theorem isWordText_of_mem_memberNames {name : String}
    (h : name ∈ definitions.flatMap Definition.memberNames) : Text.IsWordText name.toList := by
  obtain ⟨definition, hdefinition, hname⟩ := List.mem_flatMap.1 h
  have hfield {field : Field} (hfield : field ∈ definition.fields) :
      Text.IsWordText field.name.toList :=
    (isWordText_of_mem_fields hcompile (List.mem_flatMap_of_mem hdefinition hfield)).1
  cases definition with
  | schema schema =>
    obtain ⟨field, hmem, rfl⟩ := List.mem_map.1 hname
    exact hfield hmem
  | plugin plugin =>
    obtain ⟨method, hmethod, hname⟩ := List.mem_flatMap.1 hname
    rcases List.mem_cons.1 hname with rfl | hparameter
    · exact isWordText_of_mem_methods hcompile hdefinition hmethod
    · obtain ⟨field, hmem, rfl⟩ := List.mem_map.1 hparameter
      exact hfield (List.mem_flatMap_of_mem hmethod (List.mem_append_left _ hmem))

variable {module : Option String} {file : CodeFile} (hfile : fileOf module definitions = .ok file)

include hfile

/-- The members of an accepted source are those of all of its definitions. -/
theorem memberNames_perm_of_compile :
    file.memberNames.Perm ((definitions.flatMap Definition.memberNames).map memberName) := by
  have hperm := memberNames_perm hfile
  rw [schemas_ofDefinitions (nodup_names_of_compile hcompile)] at hperm
  exact hperm.trans (((inSections_perm definitions).flatMap_right _).map _)

/-- Every generated name is an escaped one, and has no characters but those of words. -/
theorem exists_escapeKeyword_of_mem {name : String}
    (h : name ∈ file.typeNames ++ file.memberNames) :
    ∃ plain, escapeKeyword plain = name ∧ Text.IsWordText name.toList := by
  rcases List.mem_append.1 h with htype | hmember
  · rw [(typeNames_perm_of_compile hcompile hfile).mem_iff] at htype
    obtain ⟨definition, hdefinition, rfl⟩ := List.mem_map.1 htype
    exact ⟨_, rfl, isWordText_typeName (isWordText_codeName hcompile hdefinition)⟩
  · rw [(memberNames_perm_of_compile hcompile hfile).mem_iff] at hmember
    obtain ⟨original, horiginal, rfl⟩ := List.mem_map.1 hmember
    exact ⟨_, rfl, isWordText_memberName (isWordText_of_mem_memberNames hcompile horiginal)⟩

/--
The names of types, fields, methods and parameters in the code of an accepted source come from the
names of its definitions and their members. They have no characters but those of words, and if one
of them is reserved at all, then for later use. A type has an identifier exactly if the first letter
or digit of the name that it comes from is a letter, and so has a member unless its name in lower
case is reserved for later use. So all names are identifiers exactly if this holds of all the names
they come from.
-/
theorem identifiers_of_accepted :
    file.typeNames.Perm (definitions.map fun definition ↦ typeName definition.codeName) ∧
    file.memberNames.Perm ((definitions.flatMap Definition.memberNames).map memberName) ∧
    (∀ name ∈ file.typeNames ++ file.memberNames,
      (∀ c ∈ name.toList, c.isAlphanum = true ∨ c = '_') ∧
        (name ∈ reservedWords → name ∈ wordsForLater)) ∧
    (∀ definition ∈ definitions,
      IsIdentifier (typeName definition.codeName) ↔
        startsWithLetter definition.codeName = true) ∧
    (∀ name ∈ definitions.flatMap Definition.memberNames,
      IsIdentifier (memberName name) ↔
        startsWithLetter name = true ∧ Text.snakeCase name ∉ wordsForLater) ∧
    ((∀ name ∈ file.typeNames ++ file.memberNames, IsIdentifier name) ↔
      (∀ definition ∈ definitions, startsWithLetter definition.codeName = true) ∧
      ∀ name ∈ definitions.flatMap Definition.memberNames,
        startsWithLetter name = true ∧ Text.snakeCase name ∉ wordsForLater) := by
  have htypes := typeNames_perm_of_compile hcompile hfile
  have hmembers := memberNames_perm_of_compile hcompile hfile
  have htype (definition : Definition) (hmem : definition ∈ definitions) :=
    isIdentifier_typeName_iff (isWordText_codeName hcompile hmem)
  have hmember (name : String) (hmem : name ∈ definitions.flatMap Definition.memberNames) :=
    isIdentifier_memberName_iff (isWordText_of_mem_memberNames hcompile hmem)
  refine ⟨htypes, hmembers, fun name hname ↦ ?_, htype, hmember, ?_⟩
  · obtain ⟨plain, rfl, hword⟩ := exists_escapeKeyword_of_mem hcompile hfile hname
    refine ⟨fun c hc ↦ continuesWord_iff.1 (List.all_eq_true.1 hword c hc), fun hreserved ↦ ?_⟩
    exact (mem_reservedWords_iff.1 hreserved).resolve_left (escapeKeyword_notMem_keywords plain)
  · have hall : (∀ name ∈ file.typeNames, IsIdentifier name) ∧
        (∀ name ∈ file.memberNames, IsIdentifier name) ↔
        (∀ definition ∈ definitions, IsIdentifier (typeName definition.codeName)) ∧
          ∀ name ∈ definitions.flatMap Definition.memberNames, IsIdentifier (memberName name) := by
      simp only [htypes.mem_iff, hmembers.mem_iff, List.forall_mem_map]
    rw [List.forall_mem_append, hall]
    exact and_congr (forall₂_congr htype) (forall₂_congr hmember)

end Accepted

/-- Keywords as the names of a schema and of a field, and an underscore in front of a method. -/
theorem identifiers_of_accepted_keywords :
    ∃ file,
      compile "schema self\x7btype int8\x7dplugin p\x7bmethod _m int8 returns int8\x7d" =
        .ok [.schema ⟨"self", [{ name := "type", type := "int8" }]⟩,
          .plugin ⟨"p", "P", [⟨"_m", .single { name := "int8", type := "int8" },
            .single { name := "int8", type := "int8" }, none⟩]⟩] ∧
      fileOf none [.schema ⟨"self", [{ name := "type", type := "int8" }]⟩,
        .plugin ⟨"p", "P", [⟨"_m", .single { name := "int8", type := "int8" },
          .single { name := "int8", type := "int8" }, none⟩]⟩] = .ok file ∧
      file.typeNames ++ file.memberNames = ["Self_", "P", "type_", "m", "int8"] ∧
      ∀ name ∈ file.typeNames ++ file.memberNames, IsIdentifier name := by
  have hcompile :
      compile "schema self\x7btype int8\x7dplugin p\x7bmethod _m int8 returns int8\x7d" =
        .ok [.schema ⟨"self", [{ name := "type", type := "int8" }]⟩,
          .plugin ⟨"p", "P", [⟨"_m", .single { name := "int8", type := "int8" },
            .single { name := "int8", type := "int8" }, none⟩]⟩] := by
    decide +kernel
  have hfile : fileOf none [.schema ⟨"self", [{ name := "type", type := "int8" }]⟩,
      .plugin ⟨"p", "P", [⟨"_m", .single { name := "int8", type := "int8" },
        .single { name := "int8", type := "int8" }, none⟩]⟩] =
      .ok ⟨none, [⟨"Self_", [⟨[], "type_", .integer true 8, .integer 0⟩]⟩],
        [⟨"p", "P", [⟨none, "m", [("int8", .integer true 8)], [.integer true 8]⟩]⟩]⟩ := by
    apply fileOf_eq_ok_iff.2
    refine ⟨[⟨"self", [{ name := "type", type := "int8" }]⟩], by cbv, .cons ?_ .nil,
      .cons (by decide +kernel) .nil, rfl⟩
    refine structOf_eq_ok.2 ⟨by decide +kernel, .cons ?_ .nil⟩
    rw [structField, defaultExpression, SchemaIndex.defaultOf_of_ownDefault? rfl]
    decide +kernel
  obtain ⟨-, -, -, -, -, hidentifiers⟩ := identifiers_of_accepted hcompile hfile
  exact ⟨_, hcompile, hfile, rfl, hidentifiers.2 (by decide +kernel)⟩

/-- A field named with a word for later use, and names without a letter in front of a digit. -/
theorem identifiers_not_all :
    (∃ file,
      compile "schema A \x7babstract int8\x7d" =
        .ok [.schema ⟨"A", [{ name := "abstract", type := "int8" }]⟩] ∧
      fileOf none [.schema ⟨"A", [{ name := "abstract", type := "int8" }]⟩] = .ok file ∧
      file.memberNames = ["abstract"] ∧ ¬IsIdentifier "abstract") ∧
    ∃ file,
      compile "schema _ \x7b_1 int8\x7d" =
        .ok [.schema ⟨"_", [{ name := "_1", type := "int8" }]⟩] ∧
      fileOf none [.schema ⟨"_", [{ name := "_1", type := "int8" }]⟩] = .ok file ∧
      file.typeNames = [""] ∧ ¬IsIdentifier "" ∧ file.memberNames = ["1"] ∧ ¬IsIdentifier "1" := by
  have hlater : fileOf none [.schema ⟨"A", [{ name := "abstract", type := "int8" }]⟩] =
      .ok ⟨none, [⟨"A", [⟨[], "abstract", .integer true 8, .integer 0⟩]⟩], []⟩ := by
    apply fileOf_eq_ok_iff.2
    refine ⟨[⟨"A", [{ name := "abstract", type := "int8" }]⟩], by cbv, .cons ?_ .nil, .nil, rfl⟩
    refine structOf_eq_ok.2 ⟨by decide +kernel, .cons ?_ .nil⟩
    rw [structField, defaultExpression, SchemaIndex.defaultOf_of_ownDefault? rfl]
    decide +kernel
  have hdigit : fileOf none [.schema ⟨"_", [{ name := "_1", type := "int8" }]⟩] =
      .ok ⟨none, [⟨"", [⟨[], "1", .integer true 8, .integer 0⟩]⟩], []⟩ := by
    apply fileOf_eq_ok_iff.2
    refine ⟨[⟨"_", [{ name := "_1", type := "int8" }]⟩], by cbv, .cons ?_ .nil, .nil, rfl⟩
    refine structOf_eq_ok.2 ⟨by decide +kernel, .cons ?_ .nil⟩
    rw [structField, defaultExpression, SchemaIndex.defaultOf_of_ownDefault? rfl]
    decide +kernel
  refine ⟨⟨_, by decide +kernel, hlater, rfl, fun h ↦ h.free (by decide)⟩,
    ⟨_, by decide +kernel, hdigit, rfl, ?_, rfl, ?_⟩⟩
  · rintro ⟨⟨first, rest, hsplit, -⟩, -, -⟩
    cases hsplit
  · rintro ⟨⟨first, rest, hsplit, hfirst⟩, -, -⟩
    have hone : first = '1' := (List.cons.inj hsplit).1.symm
    subst hone
    exact absurd hfirst (by decide)

end Code

end SchemaLang
