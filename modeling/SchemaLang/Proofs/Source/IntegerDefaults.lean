import SchemaLang.Proofs.Code.FieldContext
import SchemaLang.Proofs.Source.Fields
import SchemaLang.Proofs.Source.Insertion

/-!
# Integers as default values

A whole number in the source is an integer only if it fits into 64 bits with a sign, whatever type
it stands for. So a default value that is an integer is generated as this integer where the type of
its field holds it and it is less than `2 ^ 63`, and where it is not, no code is generated
(`compile_integer_default`). For the unsigned types of 64 bits this leaves out half of their range.
-/

namespace SchemaLang

open Phrase Code

/-! ## Integers of a type -/

/-- Whether a primitive type holds integers. -/
def Primitive.holdsIntegers (type : Primitive) : Bool := type.isInteger || type = .bigint

theorem neg_two_pow_le_of_admits {type : Primitive} {n : Int}
    (h : (CodeType.ofPrimitive type).admits n = true) : -2 ^ 63 ≤ n := by
  cases type <;> simp [CodeType.ofPrimitive, CodeType.admits] at h ⊢ <;> omega

/-- A whole number is an expression of a type if the type holds it and it is below `2 ^ 63`. -/
theorem literalExpression?_whole {type : Primitive} (htype : type.holdsIntegers = true)
    (negative : Bool) (n : Nat) : literalExpression? type (.whole negative n) =
      if (CodeType.ofPrimitive type).admits (signed negative n) = true ∧
        signed negative n < 2 ^ 63 then some (.integer (signed negative n))
      else none := by
  obtain ⟨value, hvalue⟩ : ∃ value, signed negative n = value := ⟨_, rfl⟩
  have hstring : type.isString = false := by
    cases type <;> first | rfl | cases htype
  have hfits : inSigned64 value = true ↔ -2 ^ 63 ≤ value ∧ value < 2 ^ 63 := by
    simp [inSigned64]
  rw [Literal.whole, hvalue]
  by_cases hrange : inSigned64 value = true
  · obtain ⟨hlow, hhigh⟩ := hfits.1 hrange
    rw [if_pos hrange, literalExpression?, hstring, Int64.toInt_ofInt_of_le hlow hhigh]
    simp only [Bool.false_eq_true, if_false, hhigh, and_true]
  · have hnone : ¬((CodeType.ofPrimitive type).admits value = true ∧ value < 2 ^ 63) := by
      rintro ⟨hadmits, hhigh⟩
      exact hrange (hfits.2 ⟨neg_two_pow_le_of_admits hadmits, hhigh⟩)
    rw [if_neg hrange, literalExpression?, hstring, if_neg Bool.false_ne_true, if_neg hnone]

/-- A field with a default value. -/
def Field.withDefault (field : Field) (value : Literal) : Field :=
  { field with default := some value }

section Generated

variable {context : FieldContext} {field : Field} {type : Primitive}
  (harray : field.isArray = false) (htype : field.primitive? = some type)
  (hholds : type.holdsIntegers = true) (negative : Bool) (n : Nat)

include harray htype hholds

theorem representable_whole_iff : (field.withDefault (.whole negative n)).Representable ↔
    (CodeType.ofPrimitive type).admits (signed negative n) = true ∧
      signed negative n < 2 ^ 63 := by
  have hliteral := literalExpression?_whole hholds negative n
  constructor
  · intro h
    obtain ⟨-, other, expression, hother, hexpression⟩ := h.default _ rfl
    obtain rfl : type = other := Option.some.inj (htype.symm.trans hother)
    rw [hliteral] at hexpression
    split_ifs at hexpression with hfits
    exact hfits
  · intro hfits
    refine ⟨fun h ↦ ?_, ?_⟩
    · obtain rfl : type = .byteN := Option.some.inj (htype.symm.trans h)
      cases hholds
    · rintro value ⟨⟩
      exact ⟨harray, type, _, htype, by rw [hliteral, if_pos hfits]⟩

/-- With an integer as default there is code if there is code without it and the integer fits. -/
theorem fileOf_whole_isOk_iff (hnames : ((context.fill field).map Definition.name).Nodup)
    (hdefault : field.default = none) (module : Option String) :
    (∃ file, fileOf module (context.fill (field.withDefault (.whole negative n))) = .ok file) ↔
      (∃ file, fileOf module (context.fill field) = .ok file) ∧
        (CodeType.ofPrimitive type).admits (signed negative n) = true ∧
          signed negative n < 2 ^ 63 := by
  have hfield : field.Representable := by
    refine ⟨fun h ↦ ?_, fun value h ↦ ?_⟩
    · obtain rfl : type = .byteN := Option.some.inj (htype.symm.trans h)
      cases hholds
    · rw [hdefault] at h
      cases h
  have htypes : (field.withDefault (.whole negative n)).type = field.type := rfl
  rw [← representable_whole_iff harray htype hholds]
  exact FieldContext.fileOf_fill_isOk_iff hnames htypes hfield module

/-- The generated default is the integer. -/
theorem exists_part_of_whole (hnames : ((context.fill field).map Definition.name).Nodup)
    {module : Option String} {file : CodeFile}
    (h : fileOf module (context.fill (field.withDefault (.whole negative n))) = .ok file) :
    ∃ struct ∈ file.structs, struct.name = typeName context.name ∧ ∃ part,
      struct.fields[context.front.length]? = some part ∧ part.name = memberName field.name ∧
      part.type = (if field.optional then (CodeType.ofPrimitive type).optional
        else .ofPrimitive type) ∧
      part.default.text = (if field.optional then "Some(" ++ toString (signed negative n) ++ ")"
        else toString (signed negative n)) := by
  let given : Field := field.withDefault (.whole negative n)
  have hgivenNames : ((context.fill given).map Definition.name).Nodup :=
    context.names_fill given field ▸ hnames
  obtain ⟨struct, hstruct, hname, part, hpart, hfield⟩ :=
    FieldContext.exists_part_of_fileOf_fill hgivenNames h
  obtain ⟨-, hmember, hfieldType, hexpression⟩ := structField_eq_ok.1 hfield
  have hgivenType : given.primitive? = some type := htype
  have hgivenArray : given.isArray = false := harray
  rw [fieldType_of_primitive hgivenArray hgivenType, Except.ok.injEq] at hfieldType
  refine ⟨struct, hstruct, hname, part, hpart, hmember, hfieldType.symm, ?_⟩
  have hwritten : given.default = some (.whole negative n) := rfl
  rw [defaultExpression_of_written hwritten, hgivenArray, if_neg Bool.false_ne_true, hgivenType,
    Option.bind_some, literalExpression?_whole hholds] at hexpression
  by_cases hfits : (CodeType.ofPrimitive type).admits (signed negative n) = true ∧
      signed negative n < 2 ^ 63
  · rw [if_pos hfits, Except.ok.injEq] at hexpression
    rw [← hexpression]
    cases hoptional : field.optional <;> simp [given, Field.withDefault, hoptional, Expression.text]
  · rw [if_neg hfits] at hexpression
    cases hexpression

end Generated

/-! ## The text of a default value -/

/-- A default value with blanks around it. -/
def defaultText (value : List Char) : List Char := ' ' :: '=' :: ' ' :: (value ++ [' '])

theorem gives_defaultText {digits : List Char} (hne : digits ≠ [])
    (hdigits : ∀ c ∈ digits, Decimal.isDigit c = true) (negative : Bool) (p : Text.Position)
    (rest : List Char) : ∃ default : DefaultPhrase,
      TokenStream.Gives p (defaultText (integerText negative digits)) rest (tokens default) ∧
      (∀ token ∈ tokens default, token.kind.isPlain = true) ∧
      Literal.ofToken default.value.1 = .whole negative (Decimal.ofDigits digits) := by
  have hequals : TokenKind.ofMark? '=' = some .equals := rfl
  have hgives := (TokenStream.gives_space (p := p) _).append
    ((TokenStream.gives_mark hequals _).append
    ((TokenStream.gives_space _).append
    ((TokenStream.gives_integerText hne hdigits negative (by decide) _).append
    (TokenStream.gives_space rest))))
  refine ⟨⟨⟨⟨.equals, "=", _⟩, rfl⟩, ⟨⟨.numberLiteral, String.ofList (integerText negative digits),
    _⟩, .inr (.inl rfl)⟩⟩, hgives, List.all_eq_true.1 rfl, ?_⟩
  exact Literal.ofToken_integerText hne hdigits rfl rfl

theorem newline_notMem_defaultText {digits : List Char}
    (hdigits : ∀ c ∈ digits, Decimal.isDigit c = true) (negative : Bool) :
    '\n' ∉ defaultText (integerText negative digits) := by
  have hdigit : Decimal.isDigit '\n' = false := by decide
  simp [defaultText, notMem_integerText hdigits hdigit]

/-! ## Fields with default values -/

namespace FieldPhrase

variable {field : FieldPhrase}

theorem ofNode_of_array (harray : field.array = none) :
    (Field.ofNode field.node).name = field.name.1.text ∧
      (Field.ofNode field.node).type = field.type.1.text ∧
      (Field.ofNode field.node).optional = field.optional.isSome ∧
      (Field.ofNode field.node).isArray = false := by
  obtain ⟨hname, htype, hoptional, hbrackets⟩ := Field.ofNode_parts field.node
  have hnode : field.node.array = none := congrArg (Option.map ArrayPhrase.node) harray
  rw [hnode] at hbrackets
  exact ⟨hname, htype, hoptional.trans Option.isSome_map, hbrackets⟩

theorem tokens_withDefault (hdefault : field.default = none) (default : DefaultPhrase) :
    tokens { field with default := some default } = tokens field ++ tokens default := by
  have htokens := field_append field []
  rw [hdefault, tokens_none, List.append_nil] at htokens
  have hother := field_append { field with default := some default } []
  rw [List.append_nil] at hother
  rw [htokens, hother]
  simp only [tokens_some, List.append_assoc, List.append_nil]

end FieldPhrase

/-! ## Integers in sources -/

/--
An integer as default value, in an accepted source, behind a field of a schema that is no array, has
no default value and has a type that holds integers. The field gets the literal of the integer, and
nothing else changes. Code is generated if it was before, the type of the field holds the integer,
and the integer is less than `2 ^ 63`. The default is then generated as the integer in canonical
decimal.
-/
theorem compile_integer_default {source : String} {definitions : List Definition}
    (h : compile source = .ok definitions) :
    ∃ (unit : UnitPhrase) (stop : Text.Position),
      tokensOf source = .ok (tokens unit ++ [Segment.endToken stop]) ∧
      unit.nodes.map Definition.ofNode = definitions ∧
      ∀ (item number : Nat) (field : FieldPhrase) (type : Primitive),
        unit.field? ⟨.schema item, number⟩ = some field → field.array = none →
        field.default = none → Primitive.ofName? field.type.1.text = some type →
        type.holdsIntegers = true →
        ∃ (name : String) (lead : List Token) (last : Token) (front back : List Char),
          (definitions[item]?.map Definition.name) = some name ∧
          tokens field = lead ++ [last] ∧
          source.toList = front ++ (last.text.toList ++ back) ∧
          last.position = Text.Position.start.after front ∧
          ∀ (negative : Bool) (digits : List Char), digits ≠ [] →
            (∀ c ∈ digits, Decimal.isDigit c = true) →
            let n := signed negative (Decimal.ofDigits digits)
            let value := Literal.whole negative (Decimal.ofDigits digits)
            let given := FieldPlace.modify ⟨.schema item, number⟩ (·.withDefault value) definitions
            compile (String.ofList (front ++ (last.text.toList ++
              (defaultText (integerText negative digits) ++ back)))) = .ok given ∧
            ∀ module,
              ((∃ file, fileOf module given = .ok file) ↔
                (∃ file, fileOf module definitions = .ok file) ∧
                  (CodeType.ofPrimitive type).admits n = true ∧ n < 2 ^ 63) ∧
              ∀ file, fileOf module given = .ok file →
                ∃ struct ∈ file.structs, struct.name = typeName name ∧ ∃ part,
                  struct.fields[number]? = some part ∧
                  part.name = memberName field.name.1.text ∧
                  part.type = (if field.optional.isSome then (CodeType.ofPrimitive type).optional
                    else .ofPrimitive type) ∧
                  part.default.text =
                    if field.optional.isSome then "Some(" ++ toString n ++ ")" else toString n := by
  obtain ⟨unit, stop, htokens, hnames, rfl⟩ := compile_eq_ok_iff.1 h
  refine ⟨unit, stop, htokens, rfl,
    fun item number field type hfield harray hdefault htype hholds ↦ ?_⟩
  obtain ⟨schema, hschema, hfieldNode⟩ := UnitPhrase.exists_schema_of_field? hfield
  obtain ⟨context, hname, hnumber, hcontext, hmodify⟩ :=
    FieldContext.exists_fill hschema hfieldNode
  obtain ⟨hmember, htypeText, hoptional, hsingle⟩ := FieldPhrase.ofNode_of_array harray
  have hprimitive : (Field.ofNode field.node).primitive? = some type :=
    (congrArg Primitive.ofName? htypeText).trans htype
  have hnone : (Field.ofNode field.node).default = none := by
    rw [Field.ofNode_eq, FieldPhrase.node, hdefault]
    rfl
  have hdistinct := verifyNames_eq_ok_iff.1 hnames
  rw [hcontext] at hdistinct
  obtain ⟨lead, last, hsplit⟩ : ∃ lead last, tokens field = lead ++ [last] := by
    have hne : tokens field ≠ [] := by
      obtain ⟨name, rest, htokens⟩ := TokenReader.headed_field field
      rw [htokens]
      exact List.cons_ne_nil _ _
    exact ⟨_, _, (List.dropLast_append_getLast hne).symm⟩
  obtain ⟨front, back, hsource, hposition, hchanged⟩ := exists_changed htokens hnames hfield hsplit
  refine ⟨context.name, lead, last, front, back, ?_, hsplit, hsource, hposition, ?_⟩
  · rw [hschema, hname]
    rfl
  intro negative digits hne hdigits
  obtain ⟨default, hgives, hplain, hliteral⟩ := gives_defaultText hne hdigits negative
    (last.position.after last.text.toList) back
  obtain ⟨move, hmoved⟩ := hchanged _ _ _ (by decide)
    (newline_notMem_defaultText hdigits negative) hplain hgives
  let other : FieldPhrase := { field with default := some default }
  have hother : tokens other = lead ++ last :: tokens default ++ [].map (Token.moved move) := by
    rw [FieldPhrase.tokens_withDefault hdefault, hsplit]
    simp
  have hnode : Field.ofNode other.node =
      (Field.ofNode field.node).withDefault (.whole negative (Decimal.ofDigits digits)) := by
    rw [← hliteral]
    rfl
  have hcompile := (hmoved.accepted other hother).2
  rw [hmodify, hnode] at hcompile
  dsimp only
  rw [hmodify, hcontext]
  refine ⟨hcompile, fun module ↦ ⟨?_, fun file hfile ↦ ?_⟩⟩
  · exact fileOf_whole_isOk_iff hsingle hprimitive hholds negative _ hdistinct hnone module
  · have hpart := exists_part_of_whole hsingle hprimitive hholds negative _ hdistinct hfile
    rw [hnumber, hmember, hoptional] at hpart
    exact hpart

/-- Zeros in front of an integer are not generated. -/
theorem compile_integer_default_of_zeros :
    let field : Field := { name := "x", type := "uint64" }
    compile "schema A \x7b x uint64 \x7d" = .ok [.schema ⟨"A", [field]⟩] ∧
    ∃ front back : List Char,
      "schema A \x7b x uint64 \x7d".toList = front ++ ("uint64".toList ++ back) ∧
      compile (String.ofList (front ++ ("uint64".toList ++ (" = 007 ".toList ++ back)))) =
        .ok [.schema ⟨"A", [field.withDefault (.integer 7)]⟩] ∧
      ∃ file, fileOf none [.schema ⟨"A", [field.withDefault (.integer 7)]⟩] = .ok file ∧
        ∃ struct ∈ file.structs, struct.name = "A" ∧ ∃ part, struct.fields[0]? = some part ∧
          part.name = "x" ∧ part.type = .integer false 64 ∧ part.default.text = "7" := by
  intro field
  have hcompile : compile "schema A \x7b x uint64 \x7d" = .ok [.schema ⟨"A", [field]⟩] := by
    decide +kernel
  let phrase : FieldPhrase := ⟨⟨⟨.identifier, "x", ⟨1, 12⟩⟩, rfl⟩, none,
    ⟨⟨.identifier, "uint64", ⟨1, 14⟩⟩, rfl⟩, none, none, none⟩
  let written : UnitPhrase :=
    [.schema ⟨⟨⟨.schema, "schema", ⟨1, 1⟩⟩, rfl⟩, ⟨⟨.identifier, "A", ⟨1, 8⟩⟩, rfl⟩,
      ⟨⟨⟨.leftBrace, "\x7b", ⟨1, 10⟩⟩, rfl⟩, [phrase], ⟨⟨.rightBrace, "\x7d", ⟨1, 21⟩⟩, rfl⟩⟩⟩]
  have hwritten : tokensOf "schema A \x7b x uint64 \x7d" =
      .ok (tokens written ++ [Segment.endToken ⟨1, 22⟩]) := by
    decide +kernel
  obtain ⟨unit, stop, htokens, -, hdefaults⟩ := compile_integer_default hcompile
  have hunit : unit = written := unit_eq_of_tokensOf htokens hwritten
  have hfield : unit.field? ⟨.schema 0, 0⟩ = some phrase := by
    rw [hunit]
    rfl
  obtain ⟨name, lead, last, front, back, hname, hsplit, hsource, -, hdigits⟩ :=
    hdefaults 0 0 phrase .uint64 hfield rfl rfl (by decide) rfl
  obtain rfl : "A" = name := Option.some.inj hname
  have hphrase : [phrase.name.1] ++ [phrase.type.1] = lead ++ [last] := hsplit
  obtain rfl : phrase.type.1 = last := (List.cons.inj (List.append_inj' hphrase rfl).2).1
  obtain ⟨hgiven, hfile⟩ := hdigits false "007".toList (by decide) (List.all_eq_true.1 rfl)
  have hvalue : Literal.whole false (Decimal.ofDigits "007".toList) = .integer 7 := by
    decide +kernel
  rw [hvalue] at hgiven hfile
  obtain ⟨hiff, hpart⟩ := hfile none
  have hbase : ∃ file, fileOf none [.schema ⟨"A", [field]⟩] = .ok file := by
    refine fileOf_isOk_iff.2 ⟨⟨[⟨"A", [field]⟩], by cbv⟩, ?_, List.forall_mem_nil _⟩
    rintro _ (⟨⟩ | ⟨_, ⟨⟩⟩) _ (⟨⟩ | ⟨_, ⟨⟩⟩)
    refine ⟨fun h ↦ absurd h (by decide), fun value hvalue ↦ ?_⟩
    cases hvalue
  have hadmits : (CodeType.ofPrimitive .uint64).admits 7 = true ∧ (7 : Int) < 2 ^ 63 := by
    decide +kernel
  obtain ⟨file, hgenerated⟩ := hiff.2 ⟨hbase, hadmits⟩
  refine ⟨hcompile, front, back, hsource, hgiven, file, hgenerated, ?_⟩
  obtain ⟨struct, hstruct, hname, part, hget, hmember, htype, htext⟩ := hpart file hgenerated
  have hnames : typeName "A" = "A" ∧ memberName "x" = "x" := by decide +kernel
  exact ⟨struct, hstruct, hname.trans hnames.1, part, hget, hmember.trans hnames.2, htype, htext⟩

/-- The number `2 ^ 63` is a number of the type, and no code is generated with it as default. -/
theorem compile_integer_default_unsigned :
    let field : Field := { name := "x", type := "uint64" }
    let value : Literal := .whole false 9223372036854775808
    let given : List Definition := [.schema ⟨"A", [field.withDefault value]⟩]
    compile "schema A \x7b x uint64 = 9223372036854775808 \x7d" = .ok given ∧
    (CodeType.ofPrimitive .uint64).admits 9223372036854775808 = true ∧
    fileOf none given = .error (.unfitDefault value "x" "uint64") := by
  intro field value given
  refine ⟨by decide +kernel, by decide +kernel, ?_⟩
  have horder (value : Literal) :
      (SchemaIndex.ofDefinitions [.schema ⟨"A", [field.withDefault value]⟩]).dependencyOrder =
        .ok [⟨"A", [field.withDefault value]⟩] := by
    cbv
  have hfield : structField (.ofDefinitions given) (field.withDefault value) =
      .error (.unfitDefault value "x" "uint64") := by
    rw [structField, defaultExpression_of_written rfl]
    decide +kernel
  have hstruct : structOf (.ofDefinitions given) ⟨"A", [field.withDefault value]⟩ =
      .error (.unfitDefault value "x" "uint64") := by
    rw [structOf, List.mapM_cons, hfield]
    rfl
  unfold fileOf
  dsimp only
  rw [horder, CodeError.ofResolve, ok_bind, List.mapM_cons, hstruct]
  rfl

end SchemaLang
