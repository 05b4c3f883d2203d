import SchemaLang.Proofs.Code.TraitLines
import SchemaLang.Proofs.Code.TypeNames
import SchemaLang.Proofs.Source.Fields
import SchemaLang.Proofs.Source.Interchange
import SchemaLang.Proofs.Token.Longest

/-!
# The lines of the traits of a source

Of the texts that a source puts into a trait all names are words, and so are on one line. A timeout
is shown as it stands, and is on one line unless it is a string with a line feed between its quotes
(`exists_string_of_newline`). So the lines of a trait are those that its methods call for, but for
the comment on such a timeout, which ends inside the string (`lines_of_trait`).
-/

namespace SchemaLang

open Phrase Code

open Text (OnOneLine)

/-! ## Line feeds in literals -/

/-- Of the tokens of a source only strings hold line feeds. -/
theorem kind_of_newline {source : String} {body : List Token} {p : Text.Position}
    (h : tokensOf source = .ok (body ++ [Segment.endToken p])) {token : Token}
    (htoken : token ∈ body) (hline : ¬OnOneLine token.text) : token.kind = .stringLiteral := by
  obtain ⟨form, kind, scope, hlexeme, hkind, hadvance⟩ := exists_lexeme_of_tokensOf h htoken
  have hmem : '\n' ∈ token.text.toList := Classical.not_not.1 hline
  cases form with
  | blank => cases hkind
  | comment => cases hkind
  | string =>
    cases hkind
    rw [← hadvance]
    cases scope <;> rfl
  | number =>
    have hchar : ¬('\n' = '-' ∨ '\n' = '.' ∨ Text.isDecimalDigit '\n' = true) := by
      decide
    exact absurd (LexemeForm.mem_of_number hlexeme hmem) hchar
  | word => exact absurd (OnOneLine.ofWord (isWordText_of_lexeme? hlexeme)) hline
  | mark =>
    generalize token.text.toList = text at hlexeme hmem
    cases LexemeForm.isLexeme_of_whole hlexeme with
    | mark hmark =>
      rw [← List.mem_singleton.1 hmem] at hmark
      exact absurd hmark (by decide)

theorem NumberFormat.newline_notMem_layPositional {digits : List Char}
    (hdigits : ∀ c ∈ digits, Decimal.isDigit c = true) (keepsPoint : Bool) (point : Int) :
    '\n' ∉ layPositional keepsPoint digits point := by
  have hself : '\n' ∉ digits := fun hmem ↦ absurd (hdigits _ hmem) (by decide)
  have htake : '\n' ∉ digits.take point.toNat := fun hmem ↦ hself (List.mem_of_mem_take hmem)
  have hdrop : '\n' ∉ digits.drop point.toNat := fun hmem ↦ hself (List.mem_of_mem_drop hmem)
  unfold layPositional
  split_ifs <;> simp [List.mem_replicate, hself, htake, hdrop]

/-- A number is shown with digits, a minus and a point, or by name. -/
theorem NumberFormat.onOneLine_plain (x : Binary64) : OnOneLine (plain.lay x) := by
  cases x with
  | infinite negative => cases negative <;> decide
  | nan => decide
  | finite negative rank =>
    have hmagnitude : '\n' ∉ plain.layMagnitude rank := by
      unfold layMagnitude
      split
      case isTrue => decide
      case isFalse =>
        dsimp only [plain]
        rw [if_pos rfl]
        exact newline_notMem_layPositional (fun _ ↦ Decimal.isDigit_of_mem_toDigits) _ _
    rw [OnOneLine, lay, String.toList_ofList, List.mem_append, not_or]
    exact ⟨by cases negative <;> decide, hmagnitude⟩

namespace Literal

/-- A literal is shown on one line, unless it is a text that is not. -/
theorem onOneLine_display {literal : Literal}
    (h : ∀ text, literal = .text text → OnOneLine text) : OnOneLine literal.display := by
  cases literal with
  | bool value => cases value <;> decide
  | integer n => exact .ofInt n.toInt
  | float x => exact NumberFormat.onOneLine_plain x
  | text text => exact h text rfl

/-- The text of a token that is no string stands as it is. -/
theorem ofToken_eq_text {token : Token} {text : String} (h : ofToken token = .text text)
    (hkind : token.kind ≠ .stringLiteral) : text = token.text := by
  unfold ofToken at h
  split at h
  case h_1 hstring => exact absurd hstring hkind
  case h_2 =>
    unfold ofNumber? at h
    split at h
    case h_1 => cases h
    case h_2 =>
      cases hread : Binary64.read? token.text with
      | none =>
        rw [hread] at h
        exact (Literal.text.inj h).symm
      | some x =>
        rw [hread] at h
        cases h
  case h_3 => exact (Literal.text.inj h).symm

end Literal

/-- A literal of a source that is not shown on one line is a string with a line feed in it. -/
theorem exists_string_of_newline {source : String} {body : List Token} {p : Text.Position}
    (h : tokensOf source = .ok (body ++ [Segment.endToken p])) {token : Token}
    (htoken : token ∈ body) (hline : ¬OnOneLine (Literal.ofToken token).display) :
    token.kind = .stringLiteral ∧ Literal.ofToken token = .text (Text.unquoted token.text) := by
  have hkind : token.kind = .stringLiteral := by
    by_contra hother
    refine hline (Literal.onOneLine_display fun text htext ↦ ?_)
    rw [Literal.ofToken_eq_text htext hother]
    by_contra hnewline
    exact hother (kind_of_newline h htoken hnewline)
  refine ⟨hkind, ?_⟩
  rw [Literal.ofToken, hkind]

/-! ## Names in a trait -/

section Names

variable {source : String} {definitions : List Definition} (h : compile source = .ok definitions)
  {plugin : Plugin} (hplugin : .plugin plugin ∈ definitions)

include h hplugin

/-- The dotted name of a plugin is made of words. -/
theorem onOneLine_pluginName : OnOneLine plugin.name := by
  obtain ⟨unit, p, htokens, -, rfl⟩ := compile_eq_ok_iff.1 h
  obtain ⟨node, hnode, hdefinition⟩ := List.mem_map.1 hplugin
  obtain ⟨item, hitem, rfl⟩ := List.mem_map.1 hnode
  cases item with
  | schema phrase => cases hdefinition
  | plugin phrase =>
    cases hdefinition
    have hword (name : Terminal .identifier) (hname : name.1 ∈ tokens phrase) :
        OnOneLine name.1.text := by
      have hmem : name.1 ∈ tokens unit := List.mem_flatMap.2 ⟨_, hitem, hname⟩
      exact .ofWord (isWordText_of_tokensOf htokens hmem name.2)
    refine .intercalate (by decide) (List.forall_mem_map.2 ?_)
    intro segment hsegment
    rcases List.mem_cons.1 hsegment with rfl | hsegment
    · exact hword phrase.first (by simp [tokens])
    · obtain ⟨next, hnext, rfl⟩ := List.mem_map.1 hsegment
      have hmem : next.2.1 ∈ tokens phrase.more :=
        List.mem_flatMap.2 ⟨next, hnext, List.mem_append_right _ List.mem_cons_self⟩
      exact hword next.2 (List.mem_append_left _ (List.mem_append_left _ (List.mem_append_left _
        (List.mem_append_left _ (List.mem_append_right _ hmem)))))

/-- A method of an accepted source is declared on one line. -/
theorem onOneLine_signature_of_traitMethod {method : Method} (hmethod : method ∈ plugin.methods)
    {part : TraitMethod} (hpart : traitMethod (.ofDefinitions definitions) method = .ok part) :
    OnOneLine (Trait.signature part) := by
  have hfield {field : Field} (hmem : field ∈ method.fields.toList ++ method.returns.toList) :
      Text.IsWordText field.name.toList ∧ Text.IsWordText field.type.toList :=
    isWordText_of_mem_fields h (List.mem_flatMap.2
      ⟨_, hplugin, List.mem_flatMap.2 ⟨method, hmethod, hmem⟩⟩)
  obtain ⟨-, hname, hparameters, -⟩ := traitMethod_eq_ok.1 hpart
  apply Trait.onOneLine_signature
  · rw [hname]
    exact .ofWord (isWordText_memberName (isWordText_of_mem_methods h hplugin hmethod))
  · intro parameter hparameter
    obtain ⟨field, hmem, hcode⟩ := exists_item_of_mem hparameters hparameter
    rw [(parameter_eq_ok.1 hcode).1]
    exact .ofWord (isWordText_memberName (hfield (List.mem_append_left _ hmem)).1)
  · intro name hmention
    obtain ⟨field, hmem, schema, hresolve, rfl⟩ :=
      (mem_mentions_traitMethod hpart name).1 hmention
    have hschema := SchemaIndex.name_of_get? (SchemaIndex.resolve_eq_schema_iff.1 hresolve).2
    rw [hschema]
    exact .ofWord (isWordText_typeName (hfield hmem).2)

end Names

/-- A timeout of an accepted source that is not on one line is a string of the source. -/
theorem exists_string_of_timeout {source : String} {definitions : List Definition}
    (h : compile source = .ok definitions) {plugin : Plugin}
    (hplugin : .plugin plugin ∈ definitions) {method : Method} (hmethod : method ∈ plugin.methods)
    {timeout : Literal} (htimeout : method.timeout = some timeout)
    (hline : ¬OnOneLine timeout.display) {input : List Token}
    (hinput : tokensOf source = .ok input) :
    ∃ token ∈ input, token.kind = .stringLiteral ∧
      timeout = .text (Text.unquoted token.text) := by
  obtain ⟨unit, p, htokens, -, -⟩ := compile_eq_ok_iff.1 h
  rw [htokens, Except.ok.injEq] at hinput
  subst hinput
  have hliteral : timeout ∈ definitions.flatMap Definition.literals :=
    List.mem_flatMap.2 ⟨_, hplugin, List.mem_flatMap.2 ⟨method, hmethod,
      List.mem_append_right _ (htimeout ▸ List.mem_singleton_self timeout)⟩⟩
  obtain ⟨token, htoken, rfl⟩ := exists_token_of_literal h htokens timeout hliteral
  rcases List.mem_append.1 htoken with hbody | hend
  · obtain ⟨hkind, htext⟩ := exists_string_of_newline htokens hbody hline
    exact ⟨token, htoken, hkind, htext⟩
  · have hempty : (Literal.ofToken (Segment.endToken p)).display = "" := rfl
    rw [List.mem_singleton.1 hend, hempty] at hline
    exact absurd (by decide) hline

/-! ## Lines -/

/--
The lines of a trait of an accepted source: a comment and the line that opens it, for each method in
order the comment on its timeout, if it has one, and the line that declares it, with blank lines
between the methods, and the line that closes it. The comment starts as a comment, and it is a
single line exactly if the timeout is shown without a line feed. A timeout with one is a string of
the source with a line feed between its quotes.
-/
theorem lines_of_trait {source : String} {definitions : List Definition}
    (h : compile source = .ok definitions) {plugin : Plugin}
    (hplugin : plugin ∈ Definition.plugins definitions) {trait : Trait}
    (htrait : traitOf (.ofDefinitions definitions) plugin = .ok trait) :
    ∃ (input : List Token) (blocks : List (List (List Char))), tokensOf source = .ok input ∧
      Text.lines trait.text.toList =
        ("/// Methods of plugin \x60" ++ plugin.name ++ "\x60.").toList ::
          ("pub trait " ++ typeName plugin.asName ++ " \x7b").toList ::
            (List.intercalate [[]] blocks ++ ["\x7d".toList, []]) ∧
      List.Forall₂ (fun method block ↦ ∃ comment signature,
        block = comment ++ [signature] ∧ "    fn ".toList <+: signature ∧
        (method.timeout = none → comment = []) ∧
        ∀ timeout, method.timeout = some timeout →
          comment = Text.lines ("    /// Timeout: " ++ timeout.display ++ ".").toList ∧
          (∃ first more, comment = first :: more ∧ "    /// ".toList <+: first) ∧
          (comment.length = 1 ↔ OnOneLine timeout.display) ∧
          (¬OnOneLine timeout.display → ∃ token ∈ input, token.kind = .stringLiteral ∧
            timeout = .text (Text.unquoted token.text))) plugin.methods blocks := by
  have hdefinition : .plugin plugin ∈ definitions := by
    obtain ⟨definition, hmem, hfound⟩ := List.mem_filterMap.1 hplugin
    cases definition with
    | schema schema => cases hfound
    | plugin other => exact Option.some.inj hfound ▸ hmem
  obtain ⟨unit, p, hinput, -, -⟩ := compile_eq_ok_iff.1 h
  obtain ⟨htitle, hname, hmethods⟩ := traitOf_eq_ok.1 htrait
  have hlines : Text.lines trait.text.toList = trait.lines ++ [[]] := by
    apply Trait.lines_text
    · rw [htitle]
      exact onOneLine_pluginName h hdefinition
    · rw [hname]
      exact .ofWord (isWordText_typeName (isWordText_codeName h hdefinition))
    · intro part hpart
      obtain ⟨method, hmethod, hcode⟩ := exists_item_of_mem hmethods hpart
      exact onOneLine_signature_of_traitMethod h hdefinition hmethod hcode
  refine ⟨_, trait.methods.map Trait.block, hinput, ?_, ?_⟩
  · rw [hlines, Trait.lines, htitle, hname]
    simp only [List.cons_append, List.append_assoc, List.nil_append]
  apply List.forall₂_map_right_iff.2
  apply ((List.forall₂_and_left _ _).2 ⟨fun _ hmethod ↦ hmethod, hmethods⟩).imp
  rintro method part ⟨hmethod, hpart⟩
  obtain ⟨htimeout, -⟩ := traitMethod_eq_ok.1 hpart
  refine ⟨Trait.commentLines method.timeout, (Trait.signature part).toList, ?_, ?_, ?_, ?_⟩
  · rw [Trait.block, htimeout]
  · simp only [Trait.signature, String.toList_append, List.append_assoc]
    exact List.prefix_append _ _
  · intro hnone
    rw [hnone]
    rfl
  · intro timeout hsome
    rw [hsome]
    exact ⟨rfl, Trait.exists_commentLines timeout, Trait.length_commentLines_eq_one_iff,
      fun hline ↦ exists_string_of_timeout h hdefinition hmethod hsome hline hinput⟩

/-- A line feed that is escaped keeps a comment on one line, and no timeout has no comment. -/
theorem lines_of_trait_escaped :
    let methods : List Method :=
      [⟨"a", .many [], .many [], some (.text "1\\n")⟩, ⟨"b", .many [], .many [], none⟩]
    let definitions : List Definition := [.plugin ⟨"p", "P", methods⟩]
    compile ("plugin p \x7b method a(timeout = \"1\\n\") \x7b \x7d returns \x7b \x7d " ++
      "method b \x7b \x7d returns \x7b \x7d \x7d") = .ok definitions ∧
    ∃ trait comment first second,
      traitOf (.ofDefinitions definitions) ⟨"p", "P", methods⟩ = .ok trait ∧
      Text.lines trait.text.toList = ["/// Methods of plugin \x60p\x60.".toList,
        "pub trait P \x7b".toList, comment, first, [], second, "\x7d".toList, []] ∧
      "    /// ".toList <+: comment ∧ "    fn ".toList <+: first ∧ "    fn ".toList <+: second := by
  intro methods definitions
  have hcompile : compile ("plugin p \x7b method a(timeout = \"1\\n\") \x7b \x7d returns " ++
      "\x7b \x7d method b \x7b \x7d returns \x7b \x7d \x7d") = .ok definitions := by
    decide +kernel
  have htrait : traitOf (.ofDefinitions definitions) ⟨"p", "P", methods⟩ =
      .ok ⟨"p", "P", [⟨some (.text "1\\n"), "a", [], []⟩, ⟨none, "b", [], []⟩]⟩ := by
    decide +kernel
  obtain ⟨_, blocks, -, hlines, hblocks⟩ :=
    lines_of_trait hcompile (List.mem_singleton_self _) htrait
  obtain ⟨block, _, ⟨comment, first, rfl, hfirst, -, hcomment⟩, hrest, rfl⟩ :=
    List.forall₂_cons_left_iff.1 hblocks
  obtain ⟨_, _, ⟨empty, second, rfl, hsecond, hnone, -⟩, hend, rfl⟩ :=
    List.forall₂_cons_left_iff.1 hrest
  obtain rfl := List.forall₂_nil_left_iff.1 hend
  obtain rfl := hnone rfl
  obtain ⟨-, ⟨line, more, rfl, hline⟩, hlength, -⟩ := hcomment _ rfl
  obtain rfl : more = [] := by
    have hone := hlength.2 (by decide)
    exact List.eq_nil_of_length_eq_zero (Nat.succ.inj hone)
  have hname : typeName "P" = "P" := by
    decide +kernel
  rw [hname] at hlines
  exact ⟨hcompile, _, line, first, second, htrait, hlines, hline, hfirst, hsecond⟩

/-- The line feed of a timeout ends the comment, and what is behind it stands outside. -/
theorem lines_of_trait_open_comment :
    ∃ definitions plugin trait,
      compile "plugin p \x7b method m(timeout = \"a\nb\") \x7b \x7d returns \x7b \x7d \x7d" =
        .ok definitions ∧ plugin ∈ Definition.plugins definitions ∧
      traitOf (.ofDefinitions definitions) plugin = .ok trait ∧
      Text.lines trait.text.toList =
        ["/// Methods of plugin \x60p\x60.", "pub trait P \x7b", "    /// Timeout: a", "b.",
          "    fn m(&self) -> ();", "\x7d", ""].map String.toList :=
  ⟨[.plugin ⟨"p", "P", [⟨"m", .many [], .many [], some (.text "a\nb")⟩]⟩], _,
    ⟨"p", "P", [⟨some (.text "a\nb"), "m", [], []⟩]⟩, by decide +kernel, List.mem_cons_self,
    by decide +kernel, by decide +kernel⟩

end SchemaLang
