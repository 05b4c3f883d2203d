import SchemaLang.Proofs.Source.Insertion
import SchemaLang.Proofs.Source.UnsupportedOptions

/-!
# Two ways to write an array size

The size of an array stands between its brackets or is the value of an option, and the two are read
differently. Between brackets a number is the size if it is positive and has 64 bits, and is refused
if not (`bracketSize?`). As an option it becomes a literal first. From `2 ^ 63` on this is rounded,
so that another size may be recorded, and numbers somewhat beyond 64 bits are cut down to them
(`optionSize?`). Where both ways agree is `optionSize?_eq_bracketSize?_iff`, and what a source with
either of them is compiled to is `compile_array_sizes`.
-/

namespace SchemaLang

open Phrase

/-! ## Sizes -/

/-- The size that a whole number between brackets is. -/
def bracketSize? (n : Nat) : Option UInt64 :=
  if 0 < n ∧ n < 2 ^ 64 then some (.ofNat n) else none

/-- The size that a whole number is as the value of an option. -/
def optionSize? (n : Nat) : Option UInt64 :=
  if n = 0 ∨ 2 ^ 64 + 2048 < n then none
  else if n < 2 ^ 63 then some (.ofNat n)
  else some (.ofNat (min (Binary64.nearestWhole n) (2 ^ 64 - 1)))

theorem unsigned64_pos {n : Nat} (hpos : 0 < n) (hlt : n < 2 ^ 64) :
    (0 : UInt64) < .ofNat n := by
  rw [UInt64.lt_iff_toNat_lt, UInt64.toNat_ofNat_of_lt' hlt]
  exact hpos

section Digits

variable {digits : List Char}

theorem filter_readUnsigned64?_digits (hne : digits ≠ [])
    (hdigits : ∀ c ∈ digits, Decimal.isDigit c = true) :
    (readUnsigned64? (String.ofList digits)).filter (0 < ·) =
      bracketSize? (Decimal.ofDigits digits) := by
  obtain ⟨n, hn⟩ : ∃ n, Decimal.ofDigits digits = n := ⟨_, rfl⟩
  rw [readUnsigned64?_digits hne hdigits, hn, bracketSize?]
  by_cases hlt : n < 2 ^ 64
  · rw [if_pos hlt, Option.filter_some]
    by_cases hpos : 0 < n
    · rw [if_pos (decide_eq_true (unsigned64_pos hpos hlt)), if_pos ⟨hpos, hlt⟩]
    · obtain rfl : n = 0 := by omega
      rfl
  · rw [if_neg hlt, if_neg fun h ↦ hlt h.2, Option.filter_none]

theorem arraySize?_digits (hne : digits ≠ []) (hdigits : ∀ c ∈ digits, Decimal.isDigit c = true)
    {entry : OptionNode} (hkind : entry.value.kind = .numberLiteral)
    (htext : entry.value.text = String.ofList digits) :
    entry.arraySize? = optionSize? (Decimal.ofDigits digits) := by
  obtain ⟨n, hn⟩ : ∃ n, Decimal.ofDigits digits = n := ⟨_, rfl⟩
  have hliteral : entry.literal = .whole false n :=
    hn ▸ Literal.ofToken_integerText hne hdigits hkind htext
  rw [OptionNode.arraySize?, hliteral, Literal.toUnsigned64?_whole, hn, optionSize?]
  by_cases hzero : n = 0
  · subst hzero
    rfl
  by_cases hfar : 2 ^ 64 + 2048 < n
  · rw [if_neg (by omega), if_neg (by omega), if_pos (.inr hfar), Option.filter_none]
  rw [if_neg (not_or.2 ⟨hzero, hfar⟩), if_pos (c := n ≤ 2 ^ 64 + 2048) (by omega)]
  by_cases hlt : n < 2 ^ 63
  · rw [if_pos hlt, Option.filter_some,
      if_pos (decide_eq_true (unsigned64_pos (by omega) (by omega)))]
  · have hlow := Binary64.two_pow_le_nearestWhole (k := 63) (by decide) (Nat.not_lt.1 hlt)
    rw [if_neg hlt, Option.filter_some,
      if_pos (decide_eq_true (unsigned64_pos (by omega) (by omega)))]

end Digits

/-- Rounding keeps the multiples of `2048` below `2 ^ 64`, and the last number is cut down to. -/
theorem min_nearestWhole_eq_iff {n : Nat} (hlow : 2 ^ 63 ≤ n) (hhigh : n < 2 ^ 64) :
    min (Binary64.nearestWhole n) (2 ^ 64 - 1) = n ↔ 2048 ∣ n ∨ n = 2 ^ 64 - 1 := by
  rw [Binary64.nearestWhole_of_lt_two_pow_64 hlow hhigh, Binary64.divideHalfEven]
  split_ifs <;> omega

/--
Both ways to write a size give the same one, or none, below `2 ^ 63`, at multiples of `2048` and at
the last number of 64 bits, and from the middle behind `2 ^ 64` on.
-/
theorem optionSize?_eq_bracketSize?_iff (n : Nat) :
    optionSize? n = bracketSize? n ↔
      n < 2 ^ 63 ∨ n < 2 ^ 64 ∧ (2048 ∣ n ∨ n = 2 ^ 64 - 1) ∨ 2 ^ 64 + 2048 < n := by
  rw [optionSize?, bracketSize?]
  by_cases hzero : n = 0
  · subst hzero
    simp
  by_cases hfar : 2 ^ 64 + 2048 < n
  · rw [if_pos (.inr hfar), if_neg (by omega)]
    exact iff_of_true rfl (.inr (.inr hfar))
  rw [if_neg (not_or.2 ⟨hzero, hfar⟩)]
  by_cases hlt : n < 2 ^ 63
  · rw [if_pos hlt, if_pos (by omega)]
    exact iff_of_true rfl (.inl hlt)
  rw [if_neg hlt]
  by_cases hfits : n < 2 ^ 64
  · have hsame : UInt64.ofNat (min (Binary64.nearestWhole n) (2 ^ 64 - 1)) = .ofNat n ↔
        min (Binary64.nearestWhole n) (2 ^ 64 - 1) = n := by
      have hmin : min (Binary64.nearestWhole n) (2 ^ 64 - 1) < 2 ^ 64 := by omega
      rw [← UInt64.toNat_inj, UInt64.toNat_ofNat_of_lt' hmin, UInt64.toNat_ofNat_of_lt' hfits]
    rw [if_pos ⟨by omega, hfits⟩, Option.some.injEq, hsame,
      min_nearestWhole_eq_iff (Nat.not_lt.1 hlt) hfits]
    omega
  · rw [if_neg fun h ↦ hfits h.2]
    exact iff_of_false (Option.some_ne_none _) (by omega)

/-! ## The texts of sizes -/

/-- Brackets with digits between them. -/
def bracketsText (digits : List Char) : List Char := '[' :: (digits ++ [']'])

/-- An option with digits as the array size, and brackets. -/
def sizeOptionText (digits : List Char) : List Char :=
  '(' :: ("arraySize = ".toList ++ (digits ++ ")[]".toList))

section Texts

variable {digits : List Char} (hne : digits ≠ [])
  (hdigits : ∀ c ∈ digits, Decimal.isDigit c = true) (p : Text.Position) (rest : List Char)

include hne hdigits

theorem gives_bracketsText : TokenStream.Gives p (bracketsText digits) rest
    [⟨.leftBracket, "[", p⟩, ⟨.numberLiteral, String.ofList digits, p.after ['[']⟩,
      ⟨.rightBracket, "]", (p.after ['[']).after digits⟩] :=
  have hbracket : TokenKind.ofMark? '[' = some .leftBracket := rfl
  have hclosing : TokenKind.ofMark? ']' = some .rightBracket := rfl
  (TokenStream.gives_mark hbracket _).append
    ((TokenStream.gives_integerText hne hdigits false (by decide) rest).append
      (TokenStream.gives_mark hclosing rest))

theorem gives_sizeOptionText : ∃ (options : OptionsPhrase) (array : ArrayPhrase) (value : Token),
    TokenStream.Gives p (sizeOptionText digits) rest (tokens options ++ tokens array) ∧
    (∀ token ∈ tokens options ++ tokens array, token.kind.isPlain = true) ∧
    options.nodes = [⟨⟨.identifier, "arraySize", p.after ['(']⟩, value⟩] ∧ array.node = ⟨none⟩ ∧
    value.kind = .numberLiteral ∧ value.text = String.ofList digits := by
  have hopening : TokenKind.ofMark? '(' = some .leftParen := rfl
  have hequals : TokenKind.ofMark? '=' = some .equals := rfl
  have hclosing : TokenKind.ofMark? ')' = some .rightParen := rfl
  have hleft : TokenKind.ofMark? '[' = some .leftBracket := rfl
  have hright : TokenKind.ofMark? ']' = some .rightBracket := rfl
  have hkey : LexemeForm.lexeme? "arraySize".toList = some (.word, "arraySize".toList.length) := by
    decide
  have hword (rest : List Char) : LexemeForm.word.Stops "arraySize".toList (' ' :: rest) :=
    LexemeForm.stops_of_endsToken ⟨by decide, by decide⟩ (by decide) _ rest
  have hgives := (TokenStream.gives_mark (p := p) hopening _).append
    ((TokenStream.gives_lexeme hkey (hword _) rfl).append
    ((TokenStream.gives_space _).append
    ((TokenStream.gives_mark hequals _).append
    ((TokenStream.gives_space _).append
    ((TokenStream.gives_integerText hne hdigits false (by decide) _).append
    ((TokenStream.gives_mark hclosing _).append
    ((TokenStream.gives_mark hleft _).append
    (TokenStream.gives_mark hright rest))))))))
  let key : Terminal .identifier := ⟨⟨.identifier, "arraySize", p.after ['(']⟩, rfl⟩
  refine ⟨⟨⟨⟨.leftParen, "(", p⟩, rfl⟩, some (⟨key, ⟨⟨.equals, "=", _⟩, rfl⟩,
      ⟨⟨.numberLiteral, String.ofList digits, _⟩, .inr (.inl rfl)⟩⟩, []),
      ⟨⟨.rightParen, ")", _⟩, rfl⟩⟩,
    ⟨⟨⟨.leftBracket, "[", _⟩, rfl⟩, none, ⟨⟨.rightBracket, "]", _⟩, rfl⟩⟩, _, hgives, ?_, rfl, rfl,
    rfl, rfl⟩
  exact List.all_eq_true.1 rfl

end Texts

/-! ## Fields with sizes -/

/-- The options of a source that have no effect are in the record of its run. -/
theorem Event.mem_ofSource {source : String} {nodes : List ItemNode} {definitions : List Definition}
    (hitems : itemsOf source = .ok nodes) (hcompile : compile source = .ok definitions)
    {option : IgnoredOption} (h : option ∈ nodes.flatMap ItemNode.ignoredOptions) :
    ignored option ∈ ofSource source := by
  have hnames : verifyNames nodes = .ok () := by
    rw [compile, verifiedItemsOf, hitems, ok_bind] at hcompile
    obtain ⟨_, hverified, -⟩ := bind_eq_ok.1 hcompile
    obtain ⟨_, hverify, -⟩ := bind_eq_ok.1 hverified
    exact hverify
  have hmem : ignored option ∈ ofItems nodes := by
    rw [ofItems_eq]
    exact List.mem_append_left _ (List.mem_map_of_mem h)
  unfold ofSource
  rw [hitems]
  dsimp only
  rw [hnames]
  exact .tail _ (.tail _ (List.mem_append_left _ hmem))

/-- A field as an array with a size, or with none. -/
def Field.sized (field : Field) (size? : Option UInt64) : Field :=
  { field with isArray := true, arraySize := size? }

/-- The default value of a field does not depend on its place. -/
theorem DefaultPhrase.literal_moved (move : Text.Position → Text.Position)
    (default : Option DefaultPhrase) :
    ((Phrase.moved move default).map (·.value.1)).map Literal.ofToken =
      (default.map (·.value.1)).map Literal.ofToken := by
  cases default <;> rfl

section Sized

variable {field : FieldPhrase} (hoptions : field.options = none) (harray : field.array = none)
  (move : Text.Position → Text.Position)

include hoptions harray

theorem FieldPhrase.ofNode_bracketed {array : ArrayPhrase} {number : Token} {size : UInt64}
    (hnode : array.node = ⟨some number⟩) (hsize : readUnsigned64? number.text = some size) :
    Field.ofNode (FieldPhrase.node { field with
      array := some array, default := Phrase.moved move field.default }) =
        (Field.ofNode field.node).sized (some size) := by
  simp only [FieldPhrase.node, Field.ofNode_eq, hoptions, harray, Option.map_none, Option.map_some,
    Option.getD_none, List.foldl_nil, DefaultPhrase.literal_moved, hnode, Field.withArray, hsize,
    Field.sized]

theorem FieldPhrase.ofNode_optioned {options : OptionsPhrase} {array : ArrayPhrase}
    {entry : OptionNode} (hnodes : options.nodes = [entry]) (hkey : entry.key.text = "arraySize")
    (hnode : array.node = ⟨none⟩) :
    Field.ofNode (FieldPhrase.node { field with
      options := some options, array := some array,
      default := Phrase.moved move field.default }) =
        (Field.ofNode field.node).sized entry.arraySize? := by
  simp only [FieldPhrase.node, Field.ofNode_eq, hoptions, harray, Option.map_none, Option.map_some,
    Option.getD_none, Option.getD_some, List.foldl_nil, List.foldl_cons,
    DefaultPhrase.literal_moved, hnodes, hnode, Field.withArray, Field.withOption,
    Field.withOption?, hkey, Field.sized]
  cases entry.arraySize? <;> rfl

variable {unit : UnitPhrase} {place : FieldPlace} {source : String} {digits : List Char}

/-- With brackets a field has the size between them, or the source is refused at the number. -/
theorem Changed.compile_bracketed {p q r : Text.Position} (hne : digits ≠ [])
    (hdigits : ∀ c ∈ digits, Decimal.isDigit c = true)
    (h : Changed unit place source move (field.front .type ++ field.type.1 ::
      [⟨.leftBracket, "[", p⟩, ⟨.numberLiteral, String.ofList digits, q⟩, ⟨.rightBracket, "]", r⟩])
      (tokens field.default)) :
    compile source =
      match bracketSize? (Decimal.ofDigits digits) with
      | some size => .ok (place.modify (fun _ ↦ (Field.ofNode field.node).sized (some size))
          (unit.nodes.map Definition.ofNode))
      | none => .error ⟨.arraySize (String.ofList digits), q⟩ := by
  have hsize := filter_readUnsigned64?_digits hne hdigits
  let opening : Terminal .leftBracket := ⟨⟨.leftBracket, "[", p⟩, rfl⟩
  cases hbracket : bracketSize? (Decimal.ofDigits digits) with
  | some size =>
    rw [hbracket, Option.filter_eq_some_iff, decide_eq_true_iff] at hsize
    let array : ArrayPhrase := ⟨opening, some ⟨⟨.numberLiteral, String.ofList digits, q⟩, rfl,
      size, hsize⟩, ⟨⟨.rightBracket, "]", r⟩, rfl⟩⟩
    have hnode : array.node = ⟨some ⟨.numberLiteral, String.ofList digits, q⟩⟩ := rfl
    have hother := FieldPhrase.ofNode_bracketed hoptions harray move hnode hsize.1
    dsimp only
    rw [← hother]
    refine (h.accepted _ ?_).2
    rw [FieldPhrase.tokens_word _ .type, FieldPhrase.back, hoptions, tokens_moved, tokens_none,
      List.nil_append, List.append_assoc]
    rfl
  | none =>
    have hnone : TokenReader.isArraySize (String.ofList digits) = false := by
      rw [Bool.eq_false_iff, ne_eq, TokenReader.isArraySize_iff]
      rintro ⟨size, hread, hpos⟩
      rw [hbracket, hread, Option.filter_some, if_pos (decide_eq_true hpos)] at hsize
      cases hsize
    let number : Token := ⟨.numberLiteral, String.ofList digits, q⟩
    have hkind : number.kind = .numberLiteral := rfl
    obtain ⟨stop, hrefused⟩ := h.refused (.arraySize number) fun rest ↦ by
      rw [FieldPhrase.front, List.append_assoc, List.append_assoc]
      exact TokenReader.field_refused_size field.name field.optional field.type opening
        (⟨.rightBracket, "]", r⟩ :: rest) hkind hnone
    exact hrefused

/--
With an option a field has the size that the number becomes as a literal. If there is none, there is
a warning at the option.
-/
theorem Changed.compile_optioned {options : OptionsPhrase} {array : ArrayPhrase}
    {entry : OptionNode} (hne : digits ≠ []) (hdigits : ∀ c ∈ digits, Decimal.isDigit c = true)
    (h : Changed unit place source move (field.front .type ++ field.type.1 ::
      (tokens options ++ tokens array)) (tokens field.default))
    (hfield : unit.field? place = some field) (hnodes : options.nodes = [entry])
    (hnode : array.node = ⟨none⟩) (hkey : entry.key.text = "arraySize")
    (hkind : entry.value.kind = .numberLiteral)
    (htext : entry.value.text = String.ofList digits) :
    compile source = .ok (place.modify
      (fun _ ↦ (Field.ofNode field.node).sized (optionSize? (Decimal.ofDigits digits)))
      (unit.nodes.map Definition.ofNode)) ∧
    (optionSize? (Decimal.ofDigits digits) = none →
      .ignored ⟨.field, "arraySize", entry.key.position⟩ ∈ Event.ofSource source) := by
  have hsize := arraySize?_digits hne hdigits hkind htext
  have hother := FieldPhrase.ofNode_optioned hoptions harray move hnodes hkey hnode
  let other : FieldPhrase := { field with
    options := some options, array := some array, default := Phrase.moved move field.default }
  have htokens : tokens other = field.front .type ++ field.type.1 ::
      (tokens options ++ tokens array) ++ (tokens field.default).map (·.moved move) := by
    rw [FieldPhrase.tokens_word _ .type, FieldPhrase.back, tokens_some, tokens_some, tokens_moved,
      ← List.append_assoc (tokens options), List.append_assoc (field.front .type)]
    rfl
  obtain ⟨hitems, hcompile⟩ := h.accepted other htokens
  rw [hother, hsize] at hcompile
  refine ⟨hcompile, fun hnone ↦ Event.mem_ofSource hitems hcompile ?_⟩
  have hplace : (UnitPhrase.modifyField (Phrase.moved move unit) place fun _ ↦ other).field? place =
      some other := by
    rw [UnitPhrase.field?_modifyField, UnitPhrase.field?_moved hfield, Option.map_some]
  have hoption : other.node.options.getD [] = [entry] := hnodes
  have hunsupported : OwnedOption.Unsupported ⟨.field, entry⟩ :=
    .inr ⟨hkey, OptionNode.arraySize?_eq_none_iff.1 (hsize.trans hnone)⟩
  apply UnitPhrase.ignoredOptions_of_field? hplace
  rw [FieldNode.ignoredOptions_eq, FieldNode.ownedOptions, hoption, ← hkey]
  exact mem_unsupportedReports (List.mem_singleton_self _) hunsupported

end Sized

/--
An array size in brackets and as an option, in an accepted source, behind the type of a field that
has neither options nor brackets. Both ways change the field to an array and nothing else. The size
between brackets is the number itself, and if that is no size, the source is refused at the number.
The option is always accepted, and there is a warning at it if no size is recorded. Both ways agree
but for numbers from `2 ^ 63` up to somewhat above `2 ^ 64`, of which only some are kept.
-/
theorem compile_array_sizes {source : String} {definitions : List Definition}
    (h : compile source = .ok definitions) :
    ∃ (unit : UnitPhrase) (stop : Text.Position),
      tokensOf source = .ok (tokens unit ++ [Segment.endToken stop]) ∧
      unit.nodes.map Definition.ofNode = definitions ∧
      ∀ (place : FieldPlace) (field : FieldPhrase), unit.field? place = some field →
        field.options = none → field.array = none →
        ∃ front back : List Char,
          source.toList = front ++ (field.type.1.text.toList ++ back) ∧
          field.type.1.position = Text.Position.start.after front ∧
          ∀ digits : List Char, digits ≠ [] → (∀ c ∈ digits, Decimal.isDigit c = true) →
            let n := Decimal.ofDigits digits
            let opening := field.type.1.position.after field.type.1.text.toList
            let written (text : List Char) :=
              String.ofList (front ++ (field.type.1.text.toList ++ (text ++ back)))
            let sized (size? : Option UInt64) :=
              place.modify (fun _ ↦ (Field.ofNode field.node).sized size?) definitions
            (compile (written (bracketsText digits)) =
              match bracketSize? n with
              | some size => .ok (sized (some size))
              | none => .error ⟨.arraySize (String.ofList digits), opening.after ['[']⟩) ∧
            compile (written (sizeOptionText digits)) = .ok (sized (optionSize? n)) ∧
            (optionSize? n = none → .ignored ⟨.field, "arraySize", opening.after ['(']⟩ ∈
              Event.ofSource (written (sizeOptionText digits))) ∧
            (optionSize? n = bracketSize? n ↔
              n < 2 ^ 63 ∨ n < 2 ^ 64 ∧ (2048 ∣ n ∨ n = 2 ^ 64 - 1) ∨ 2 ^ 64 + 2048 < n) := by
  obtain ⟨unit, stop, htokens, hnames, rfl⟩ := compile_eq_ok_iff.1 h
  refine ⟨unit, stop, htokens, rfl, fun place field hfield hoptions harray ↦ ?_⟩
  have hsplit : tokens field = field.front .type ++ field.type.1 :: tokens field.default := by
    rw [field.tokens_word .type, FieldPhrase.back, hoptions, harray]
    rfl
  obtain ⟨front, back, hsource, hposition, hchanged⟩ := exists_changed htokens hnames hfield hsplit
  refine ⟨front, back, hsource, hposition, fun digits hne hdigits ↦ ?_⟩
  obtain ⟨p, hp⟩ : ∃ p, field.type.1.position.after field.type.1.text.toList = p := ⟨_, rfl⟩
  rw [hp] at hchanged
  dsimp only
  rw [hp]
  have hline : '\n' ∉ digits := notMem_digits hdigits (by decide)
  obtain ⟨move, hbracketed⟩ := hchanged _ _ _ (by decide) (by simp [hline])
    (List.all_eq_true.1 rfl) (gives_bracketsText hne hdigits p back)
  obtain ⟨options, array, value, hgives, hplain, hnodes, hnode, hkind, htext⟩ :=
    gives_sizeOptionText hne hdigits p back
  obtain ⟨moveOption, hoptioned⟩ := hchanged _ _ _ (by decide) (by simp [hline]) hplain hgives
  obtain ⟨hcompile, hwarning⟩ := hoptioned.compile_optioned hoptions harray moveOption hne hdigits
    hfield hnodes hnode rfl hkind htext
  exact ⟨hbracketed.compile_bracketed hoptions harray move hne hdigits, hcompile, hwarning,
    optionSize?_eq_bracketSize?_iff _⟩

/-- Zeros in front of a size do not matter. -/
theorem compile_array_sizes_of_zeros :
    compile "schema A \x7b x int8 \x7d" = .ok [.schema ⟨"A", [{ name := "x", type := "int8" }]⟩] ∧
    ∃ front back : List Char,
      "schema A \x7b x int8 \x7d".toList = front ++ ("int8".toList ++ back) ∧
      compile (String.ofList (front ++ ("int8".toList ++ ("[012]".toList ++ back)))) =
        compile (String.ofList (front ++
          ("int8".toList ++ ("(arraySize = 012)[]".toList ++ back)))) ∧
      compile (String.ofList (front ++ ("int8".toList ++ ("[012]".toList ++ back)))) =
        .ok [.schema ⟨"A", [Field.sized { name := "x", type := "int8" } (some 12)]⟩] := by
  have hcompile : compile "schema A \x7b x int8 \x7d" =
      .ok [.schema ⟨"A", [{ name := "x", type := "int8" }]⟩] := by
    decide +kernel
  let field : FieldPhrase := ⟨⟨⟨.identifier, "x", ⟨1, 12⟩⟩, rfl⟩, none,
    ⟨⟨.identifier, "int8", ⟨1, 14⟩⟩, rfl⟩, none, none, none⟩
  let written : UnitPhrase :=
    [.schema ⟨⟨⟨.schema, "schema", ⟨1, 1⟩⟩, rfl⟩, ⟨⟨.identifier, "A", ⟨1, 8⟩⟩, rfl⟩,
      ⟨⟨⟨.leftBrace, "\x7b", ⟨1, 10⟩⟩, rfl⟩, [field], ⟨⟨.rightBrace, "\x7d", ⟨1, 19⟩⟩, rfl⟩⟩⟩]
  have hwritten : tokensOf "schema A \x7b x int8 \x7d" =
      .ok (tokens written ++ [Segment.endToken ⟨1, 20⟩]) := by
    decide +kernel
  obtain ⟨unit, stop, htokens, -, hsizes⟩ := compile_array_sizes hcompile
  have hunit : unit = written := unit_eq_of_tokensOf htokens hwritten
  have hfield : unit.field? ⟨.schema 0, 0⟩ = some field := by
    rw [hunit]
    rfl
  obtain ⟨front, back, hsource, -, hdigits⟩ := hsizes _ field hfield rfl rfl
  obtain ⟨hbracketed, hoptioned, -, -⟩ := hdigits "012".toList (by decide) (List.all_eq_true.1 rfl)
  exact ⟨hcompile, front, back, hsource, hbracketed.trans hoptioned.symm, hbracketed⟩

/--
As an option the number behind `2 ^ 63` is rounded down to it, and `2 ^ 64`, which is no size, is
cut down to the greatest one without a warning.
-/
theorem compile_array_sizes_differ :
    compile "schema A \x7b x int8[9223372036854775809] \x7d" =
      .ok [.schema ⟨"A",
        [Field.sized { name := "x", type := "int8" } (some 9223372036854775809)]⟩] ∧
    compile "schema A \x7b x int8(arraySize = 9223372036854775809)[] \x7d" =
      .ok [.schema ⟨"A",
        [Field.sized { name := "x", type := "int8" } (some 9223372036854775808)]⟩] ∧
    compile "schema A \x7b x int8[18446744073709551616] \x7d" =
      .error ⟨.arraySize "18446744073709551616", ⟨1, 19⟩⟩ ∧
    compile "schema A \x7b x int8(arraySize = 18446744073709551616)[] \x7d" =
      .ok [.schema ⟨"A",
        [Field.sized { name := "x", type := "int8" } (some 18446744073709551615)]⟩] ∧
    (Event.ofSource "schema A \x7b x int8(arraySize = 18446744073709551616)[] \x7d").all
      (!·.isWarning) = true := by
  decide +kernel

end SchemaLang
