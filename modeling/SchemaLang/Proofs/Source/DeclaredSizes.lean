import SchemaLang.Proofs.Source.Fields

/-!
# Declared array sizes

The size of an array stands between brackets or is the value of an option. Every declared size is
positive, and the number between brackets counts whatever the options say
(`Field.arraySize_ofNode`). But only brackets make a field an array, while the option is taken
on any field: with the option and without brackets a field has a size and is no array
(`compile_declared_sizes`).
-/

namespace SchemaLang

open Phrase

/-! ## Sizes of options and of brackets -/

/-- The size that an option of a field declares. -/
def OptionNode.declaredSize? (entry : OptionNode) : Option UInt64 :=
  if entry.key.text = "arraySize" then entry.arraySize? else none

/-- The size that the options of a field declare: that of the last one that declares any. -/
def FieldNode.optionSize? (node : FieldNode) : Option UInt64 :=
  (node.options.getD []).reverse.findSome? OptionNode.declaredSize?

theorem OptionNode.pos_of_declaredSize? {entry : OptionNode} {size : UInt64}
    (h : entry.declaredSize? = some size) : 0 < size := by
  unfold declaredSize? arraySize? at h
  split_ifs at h
  exact of_decide_eq_true (Option.filter_eq_some_iff.1 h).2

theorem FieldNode.pos_of_optionSize? {node : FieldNode} {size : UInt64}
    (h : node.optionSize? = some size) : 0 < size := by
  obtain ⟨entry, -, hentry⟩ := List.exists_of_findSome?_eq_some h
  exact OptionNode.pos_of_declaredSize? hentry

namespace Field

theorem arraySize_withOption (field : Field) (entry : OptionNode) :
    (field.withOption entry).arraySize = entry.declaredSize?.or field.arraySize := by
  unfold withOption withOption? OptionNode.declaredSize?
  split
  case h_6 hkey =>
    rw [if_pos hkey]
    cases entry.arraySize? <;> rfl
  all_goals
    rw [if_neg (by simp_all)]
    rfl

/-- Of the options that declare a size the last one counts. -/
theorem arraySize_foldl_withOption (options : List OptionNode) (field : Field) :
    (options.foldl withOption field).arraySize =
      (options.reverse.findSome? OptionNode.declaredSize?).or field.arraySize := by
  induction options generalizing field with
  | nil => rfl
  | cons entry options ih =>
    rw [List.foldl_cons, ih, arraySize_withOption, List.reverse_cons, List.findSome?_append,
      List.findSome?_singleton, Option.or_assoc]

/-- The number between brackets is the size, and without one the options declare it. -/
theorem arraySize_ofNode (node : FieldNode) : (ofNode node).arraySize =
    match node.array.bind (·.size) with
    | some number => readUnsigned64? number.text
    | none => node.optionSize? := by
  have hoptions := arraySize_foldl_withOption (node.options.getD [])
    { name := node.name.text, type := node.type.text, optional := node.optional.isSome }
  rw [Option.or_none] at hoptions
  rw [ofNode_eq]
  obtain _ | ⟨_ | number⟩ := node.array
  · exact hoptions
  · exact hoptions
  · rfl

end Field

/-! ## Sizes of written fields -/

namespace FieldPhrase

variable {phrase : FieldPhrase} {array : ArrayPhrase} {number : SizeTerminal}

theorem isArray_ofNode (phrase : FieldPhrase) :
    (Field.ofNode phrase.node).isArray = phrase.array.isSome := by
  obtain ⟨-, -, -, harray⟩ := Field.ofNode_parts phrase.node
  exact harray.trans Option.isSome_map

/-- A number between the brackets of a field is its size. -/
theorem arraySize_of_size (harray : phrase.array = some array) (hsize : array.size = some number) :
    (Field.ofNode phrase.node).arraySize = readUnsigned64? number.1.text := by
  rw [Field.arraySize_ofNode]
  simp only [node, harray, ArrayPhrase.node, hsize, Option.map_some, Option.bind_some]

/-- Without a number between brackets the options of a field declare its size. -/
theorem arraySize_of_options (h : ∀ array, phrase.array = some array → array.size = none) :
    (Field.ofNode phrase.node).arraySize = phrase.node.optionSize? := by
  rw [Field.arraySize_ofNode]
  cases harray : phrase.array with
  | none => simp only [node, harray, Option.map_none, Option.bind_none]
  | some array =>
    simp only [node, harray, ArrayPhrase.node, h array harray, Option.map_some, Option.map_none,
      Option.bind_some]

/-- The size of a written field is positive, wherever it comes from. -/
theorem pos_of_arraySize {size : UInt64} (h : (Field.ofNode phrase.node).arraySize = some size) :
    0 < size := by
  by_cases hnumber : ∃ array number, phrase.array = some array ∧ array.size = some number
  · obtain ⟨array, number, harray, hnumber⟩ := hnumber
    obtain ⟨-, other, hread, hpos⟩ := number.2
    rw [arraySize_of_size harray hnumber, hread] at h
    exact Option.some.inj h ▸ hpos
  · have hnone (array : ArrayPhrase) (harray : phrase.array = some array) : array.size = none := by
      rw [Option.eq_none_iff_forall_ne_some]
      exact fun number hsize ↦ hnumber ⟨array, number, harray, hsize⟩
    rw [arraySize_of_options hnone] at h
    exact FieldNode.pos_of_optionSize? h

/-- The number of an array is among the tokens of its field. -/
theorem mem_tokens_of_size (harray : phrase.array = some array)
    (hsize : array.size = some number) : number.1 ∈ tokens phrase := by
  have hmem : number.1 ∈ tokens array := by
    refine List.mem_append_left _ (List.mem_append_right _ ?_)
    rw [hsize]
    exact List.mem_cons_self
  have hbrackets : number.1 ∈ tokens phrase.array := by
    rwa [harray]
  exact List.mem_append_left _ (List.mem_append_right _ hbrackets)

end FieldPhrase

/-- A number of a source that is read as unsigned is digits and nothing else. -/
theorem exists_digits_of_readUnsigned64? {source : String} {body : List Token} {p : Text.Position}
    (h : tokensOf source = .ok (body ++ [Segment.endToken p])) {token : Token}
    (htoken : token ∈ body) (hkind : token.kind = .numberLiteral) {size : UInt64}
    (hsize : readUnsigned64? token.text = some size) :
    ∃ digits, digits ≠ [] ∧ (∀ c ∈ digits, Decimal.isDigit c = true) ∧
      token.text = String.ofList digits ∧ size.toNat = Decimal.ofDigits digits := by
  have hlexeme := lexeme?_of_number h htoken hkind
  obtain ⟨c, rest, htext, -⟩ := LexemeForm.exists_cons_of_lexeme? hlexeme
  have hplus : c ≠ '+' := by
    rintro rfl
    rw [htext] at hlexeme
    have hhead := LexemeForm.head_of_number hlexeme
    revert hhead
    decide
  unfold readUnsigned64? at hsize
  rw [htext] at hsize
  split at hsize
  case h_1 heq => exact absurd (List.cons.inj heq).1 hplus
  case h_2 =>
    obtain ⟨n, hn, rfl⟩ := Option.map_eq_some_iff.1 hsize
    obtain ⟨hread, hlt⟩ := Option.filter_eq_some_iff.1 hn
    unfold Decimal.readNat? at hread
    split_ifs at hread with hdigits
    cases hread
    refine ⟨c :: rest, hdigits.1, List.all_eq_true.1 hdigits.2, ?_, ?_⟩
    · rw [← htext, String.ofList_toList]
    · exact UInt64.toNat_ofNat_of_lt' (of_decide_eq_true hlt)

/-! ## Declared sizes of a source -/

/--
In an accepted source every declared array size is positive. A field of a block is an array exactly
if it is written with brackets. If a number stands between them, it is the size, and else the size
is that of the options. So the fields that have a size and are no arrays are those without brackets
that have an option for it.
-/
theorem compile_declared_sizes {source : String} {definitions : List Definition}
    (h : compile source = .ok definitions) :
    ∃ (unit : UnitPhrase) (stop : Text.Position),
      tokensOf source = .ok (tokens unit ++ [Segment.endToken stop]) ∧
      unit.nodes.map Definition.ofNode = definitions ∧
      (∀ field ∈ definitions.flatMap Definition.fields, ∀ size,
        field.arraySize = some size → 0 < size) ∧
      (∀ field ∈ definitions.flatMap Definition.fields, field.arraySize.isSome = true →
        field.isArray = false → ∃ place phrase, unit.field? place = some phrase ∧
          Field.ofNode phrase.node = field ∧ phrase.array = none ∧
          phrase.node.optionSize? = field.arraySize) ∧
      ∀ (place : FieldPlace) (phrase : FieldPhrase), unit.field? place = some phrase →
        ∃ field ∈ definitions.flatMap Definition.fields, Field.ofNode phrase.node = field ∧
          field.isArray = phrase.array.isSome ∧
          (∀ array number, phrase.array = some array → array.size = some number →
            ∃ digits size, digits ≠ [] ∧ (∀ c ∈ digits, Decimal.isDigit c = true) ∧
              number.1.text = String.ofList digits ∧ field.arraySize = some size ∧
              size.toNat = Decimal.ofDigits digits) ∧
          ((∀ array, phrase.array = some array → array.size = none) →
            field.arraySize = phrase.node.optionSize?) := by
  obtain ⟨unit, stop, htokens, -, rfl⟩ := compile_eq_ok_iff.1 h
  refine ⟨unit, stop, htokens, rfl, ?_, ?_, ?_⟩
  · intro field hfield size hsize
    obtain ⟨place, phrase, hphrase, rfl⟩ | ⟨type, -, rfl⟩ := UnitPhrase.exists_of_mem_fields hfield
    · exact FieldPhrase.pos_of_arraySize hsize
    · cases hsize
  · intro field hfield hsize hsingle
    obtain ⟨place, phrase, hphrase, rfl⟩ | ⟨type, -, rfl⟩ := UnitPhrase.exists_of_mem_fields hfield
    · have hnone : phrase.array = none := by
        rw [phrase.isArray_ofNode] at hsingle
        exact Option.isNone_iff_eq_none.1 (Option.isSome_eq_false_iff.1 hsingle)
      refine ⟨place, phrase, hphrase, rfl, hnone, ?_⟩
      apply (FieldPhrase.arraySize_of_options _).symm
      intro array harray
      rw [hnone] at harray
      cases harray
    · cases hsize
  · intro place phrase hphrase
    refine ⟨_, UnitPhrase.mem_fields_of_field? hphrase, rfl, phrase.isArray_ofNode, ?_,
      FieldPhrase.arraySize_of_options⟩
    intro array number harray hnumber
    obtain ⟨hkind, size, hread, -⟩ := number.2
    have hmem := UnitPhrase.tokens_field?_subset hphrase
      (FieldPhrase.mem_tokens_of_size harray hnumber)
    obtain ⟨digits, hne, hdigits, htext, hvalue⟩ :=
      exists_digits_of_readUnsigned64? htokens hmem hkind hread
    have hsize := (FieldPhrase.arraySize_of_size harray hnumber).trans hread
    exact ⟨digits, size, hne, hdigits, htext, hsize, hvalue⟩

/-- The number between brackets counts, without its zeros, and not that of the option. -/
theorem compile_declared_sizes_of_zeros :
    let field : Field := { name := "x", type := "int8", isArray := true, arraySize := some 7 }
    compile "schema A \x7b x int8(arraySize = 5)[007] \x7d" = .ok [.schema ⟨"A", [field]⟩] ∧
    (∀ size, field.arraySize = some size → 0 < size) ∧
    ∃ digits size, "007" = String.ofList digits ∧ field.arraySize = some size ∧
      size.toNat = Decimal.ofDigits digits := by
  intro field
  have hcompile : compile "schema A \x7b x int8(arraySize = 5)[007] \x7d" =
      .ok [.schema ⟨"A", [field]⟩] := by
    decide +kernel
  let number : SizeTerminal := ⟨⟨.numberLiteral, "007", ⟨1, 34⟩⟩, rfl, 7, by decide +kernel⟩
  let array : ArrayPhrase := ⟨⟨⟨.leftBracket, "[", ⟨1, 33⟩⟩, rfl⟩, some number,
    ⟨⟨.rightBracket, "]", ⟨1, 37⟩⟩, rfl⟩⟩
  let entry : OptionPhrase := ⟨⟨⟨.identifier, "arraySize", ⟨1, 19⟩⟩, rfl⟩,
    ⟨⟨.equals, "=", ⟨1, 29⟩⟩, rfl⟩, ⟨⟨.numberLiteral, "5", ⟨1, 31⟩⟩, .inr (.inl rfl)⟩⟩
  let phrase : FieldPhrase := ⟨⟨⟨.identifier, "x", ⟨1, 12⟩⟩, rfl⟩, none,
    ⟨⟨.identifier, "int8", ⟨1, 14⟩⟩, rfl⟩, some ⟨⟨⟨.leftParen, "(", ⟨1, 18⟩⟩, rfl⟩,
      some (entry, []), ⟨⟨.rightParen, ")", ⟨1, 32⟩⟩, rfl⟩⟩, some array, none⟩
  let written : UnitPhrase :=
    [.schema ⟨⟨⟨.schema, "schema", ⟨1, 1⟩⟩, rfl⟩, ⟨⟨.identifier, "A", ⟨1, 8⟩⟩, rfl⟩,
      ⟨⟨⟨.leftBrace, "\x7b", ⟨1, 10⟩⟩, rfl⟩, [phrase], ⟨⟨.rightBrace, "\x7d", ⟨1, 39⟩⟩, rfl⟩⟩⟩]
  have hwritten : tokensOf "schema A \x7b x int8(arraySize = 5)[007] \x7d" =
      .ok (tokens written ++ [Segment.endToken ⟨1, 40⟩]) := by
    decide +kernel
  obtain ⟨unit, stop, htokens, -, hpositive, -, hsizes⟩ := compile_declared_sizes hcompile
  have hunit : unit = written := unit_eq_of_tokensOf htokens hwritten
  have hfield : unit.field? ⟨.schema 0, 0⟩ = some phrase := by
    rw [hunit]
    rfl
  obtain ⟨found, hmem, -, -, hbrackets, -⟩ := hsizes _ phrase hfield
  obtain rfl : found = field := List.mem_singleton.1 hmem
  obtain ⟨digits, size, -, -, htext, hsize, hvalue⟩ := hbrackets array number rfl rfl
  exact ⟨hcompile, hpositive _ hmem, digits, size, htext, hsize, hvalue⟩

/-- With the option alone a field has a size and is no array. -/
theorem compile_declared_sizes_without_brackets :
    ∃ definitions, compile "schema A \x7b x int8(arraySize = 3) \x7d" = .ok definitions ∧
      ∃ field ∈ definitions.flatMap Definition.fields,
        field.arraySize = some 3 ∧ field.isArray = false :=
  ⟨[.schema ⟨"A", [{ name := "x", type := "int8", arraySize := some 3 }]⟩], by decide +kernel,
    _, List.mem_cons_self, rfl, rfl⟩

end SchemaLang
