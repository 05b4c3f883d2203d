import SchemaLang.Proofs.Json.Layout

/-!
# Reading what was written

What is read from the text of a value is told by the value alone: it is the value itself but for its
numbers, each of which becomes what is read from its own text, and for binary numbers that are not
finite, which become null (`reread?`). Nothing is read if a number is refused or if arrays and
objects are nested too deep. The layout does not matter (`Layout.value?_write`).
-/

namespace SchemaLang.Json

open Decimal (isDigit)
open Text (StopsRun stopsRun_cons)

/-- The number that the text of a number denotes. -/
def numberOf? (text : List Char) : Option Json := (number? text).map Prod.fst

/-- The value read from the text of a value, with arrays and objects nested up to a depth. -/
def reread? : Nat → Json → Option Json
  | _, null => some null
  | _, bool value => some (bool value)
  | _, integer n => numberOf? (integerText n)
  | _, float x => if x.isFinite then numberOf? (floatText x) else some null
  | _, string text => some (string text)
  | 0, array _ => none
  | 0, object _ => none
  | depth + 1, array items => (items.mapM (reread? depth)).map array
  | depth + 1, object members =>
    (members.mapM fun member ↦ (reread? depth member.2).map (member.1, ·)).map object

theorem reread?_string (depth : Nat) (text : String) :
    reread? depth (string text) = some (string text) := by
  rw [reread?]

/-! ## Blanks -/

theorem skipBlank_append {blanks : List Char} (h : ∀ c ∈ blanks, isBlank c = true)
    (rest : List Char) : skipBlank (blanks ++ rest) = skipBlank rest :=
  List.dropWhile_append_of_pos h

theorem skipBlank_of_not_blank {c : Char} (h : isBlank c = false) (rest : List Char) :
    skipBlank (c :: rest) = c :: rest := by
  rw [skipBlank, List.dropWhile_cons, h, if_neg Bool.false_ne_true]

theorem continuesNumber_of_isBlank {c : Char} (h : isBlank c = true) :
    continuesNumber c = false := by
  simp only [isBlank, Bool.or_eq_true, decide_eq_true_eq] at h
  rcases h with ((rfl | rfl) | rfl) | rfl <;> decide

theorem stopsNumber_blanks_append {blanks rest : List Char} (h : ∀ c ∈ blanks, isBlank c = true)
    (hrest : StopsNumber rest) : StopsNumber (blanks ++ rest) := by
  cases blanks with
  | nil => exact hrest
  | cons d blanks => exact stopsRun_cons.2 (continuesNumber_of_isBlank (h d List.mem_cons_self))

/-- A character that stands at the beginning of the text of a value. -/
def startsValue (c : Char) : Bool :=
  ['"', '[', '\x7b', 'n', 't', 'f', '-'].contains c || isDigit c

theorem ne_of_isDigit {c d : Char} (h : isDigit c = true) (hd : isDigit d = false) : c ≠ d := by
  rintro rfl
  rw [h] at hd
  cases hd

theorem not_isBlank_of_startsValue {c : Char} (h : startsValue c = true) : isBlank c = false := by
  simp only [startsValue, Bool.or_eq_true, List.contains_iff_mem] at h
  rcases h with hmem | hdigit
  · have hall : ['"', '[', '\x7b', 'n', 't', 'f', '-'].all (!isBlank ·) = true := by decide
    simpa using List.all_eq_true.1 hall c hmem
  · simp only [isBlank, Bool.or_eq_false_iff, decide_eq_false_iff_not]
    exact ⟨⟨⟨ne_of_isDigit hdigit (by decide), ne_of_isDigit hdigit (by decide)⟩,
      ne_of_isDigit hdigit (by decide)⟩, ne_of_isDigit hdigit (by decide)⟩

theorem ne_bracket_of_startsValue {c : Char} (h : startsValue c = true) : c ≠ ']' := by
  rintro rfl
  revert h
  decide

/-! ## Values without parts -/

/-- A string is read if its characters are read up to the closing quote. -/
theorem value?_quoted {text : String} {cs rest : List Char}
    (h : Text.Quoted.decode? cs = some (text.toList, rest)) (depth : Nat) :
    value? depth ('"' :: cs) = some (string text, rest) := by
  have hvalue : value? depth ('"' :: cs) =
      (Text.Quoted.decode? cs).map fun read ↦ (string (String.ofList read.1), read.2) := by
    cases depth <;> rfl
  rw [hvalue, h, Option.map_some, String.ofList_toList]

theorem value?_string (depth : Nat) (text : String) (rest : List Char) :
    value? depth (Text.Quoted.encode text.toList ++ rest) = some (string text, rest) :=
  value?_quoted (Text.Quoted.decode?_encode text.toList rest) depth

theorem value?_null (depth : Nat) (rest : List Char) :
    value? depth ("null".toList ++ rest) = some (null, rest) := by
  cases depth <;> rfl

theorem value?_bool (depth : Nat) (value : Bool) (rest : List Char) :
    value? depth ((if value then "true".toList else "false".toList) ++ rest) =
      some (bool value, rest) := by
  cases depth <;> cases value <;> rfl

/-- A text that starts with a sign or a digit is read as a number. -/
theorem value?_number {c : Char} (h : c = '-' ∨ isDigit c = true) (depth : Nat) (cs : List Char) :
    value? depth (c :: cs) = number? (c :: cs) := by
  have hne {d : Char} (hminus : '-' ≠ d) (hdigit : isDigit d = false) : c ≠ d := by
    rcases h with rfl | hc
    · exact hminus
    · exact ne_of_isDigit hc hdigit
  have hquote : c ≠ '"' := hne (by decide) (by decide)
  have hbracket : c ≠ '[' := hne (by decide) (by decide)
  have hbrace : c ≠ '\x7b' := hne (by decide) (by decide)
  have hn : c ≠ 'n' := hne (by decide) (by decide)
  have ht : c ≠ 't' := hne (by decide) (by decide)
  have hf : c ≠ 'f' := hne (by decide) (by decide)
  cases depth <;> unfold value? <;> split <;> simp_all

namespace Numeral

variable (numeral : Numeral) {rest : List Char}

theorem exists_head_text :
    ∃ c cs, numeral.text = c :: cs ∧ (c = '-' ∨ isDigit c = true) := by
  unfold text
  cases numeral.negative with
  | true => exact ⟨_, _, rfl, .inl rfl⟩
  | false =>
    obtain ⟨c, digits, hcons⟩ := List.exists_cons_of_ne_nil numeral.whole_ne_nil
    refine ⟨c, _, by rw [hcons]; rfl, .inr (numeral.whole_digits c ?_)⟩
    rw [hcons]
    exact List.mem_cons_self

theorem numberOf?_text : numberOf? numeral.text = numeral.value? := by
  have hread := numeral.number?_text (Text.stopsRun_nil continuesNumber)
  rw [List.append_nil] at hread
  rw [numberOf?, hread]
  cases numeral.value? <;> rfl

theorem value?_text (depth : Nat) (h : StopsNumber rest) :
    Json.value? depth (numeral.text ++ rest) =
      (numberOf? numeral.text).map fun value ↦ (value, rest) := by
  obtain ⟨c, cs, hcons, hc⟩ := numeral.exists_head_text
  rw [numeral.numberOf?_text, ← numeral.number?_text h, hcons, List.cons_append]
  exact value?_number hc depth _

end Numeral

theorem numberOf?_integerText {n : Int} (hlow : -2 ^ 63 ≤ n) (hhigh : n < 2 ^ 64) :
    numberOf? (integerText n) = some (.integer n) := by
  rw [← Numeral.text_ofInt, Numeral.numberOf?_text,
    Numeral.value?_ofInt hlow hhigh]

/-- The text of a finite binary number is read as a binary number, if at all. -/
theorem exists_float_of_floatText {x : Binary64} (hfinite : x.isFinite = true) {value : Json}
    (h : numberOf? (floatText x) = some value) :
    ∃ y : Binary64, y.isFinite = true ∧ value = .float y := by
  obtain ⟨numeral, htext, hparts⟩ := exists_numeral_floatText hfinite
  rw [← htext, Numeral.numberOf?_text] at h
  exact numeral.exists_float_of_value? hparts h

/-- A short number is read from its text. -/
theorem numberOf?_floatText_of_isShort {x : Binary64} (h : x.IsShort) :
    numberOf? (floatText x) = some (.float x) := by
  obtain ⟨numeral, htext, hvalue⟩ := exists_numeral_of_isShort h
  rw [← htext, Numeral.numberOf?_text, hvalue]

/-- A text does not start as a number if the number is not finite. -/
theorem numberOf?_floatText_of_not_finite {x : Binary64} (h : ¬x.isFinite = true) :
    numberOf? (floatText x) = none := by
  rw [floatText, if_neg h]
  rfl

theorem value?_integerText (depth : Nat) (n : Int) {rest : List Char} (h : StopsNumber rest) :
    value? depth (integerText n ++ rest) =
      (numberOf? (integerText n)).map fun value ↦ (value, rest) := by
  rw [← Numeral.text_ofInt]
  exact (Numeral.ofInt n).value?_text depth h

theorem value?_floatText (depth : Nat) (x : Binary64) {rest : List Char} (h : StopsNumber rest) :
    value? depth (floatText x ++ rest) =
      (reread? depth (float x)).map fun value ↦ (value, rest) := by
  rw [reread?]
  split
  case isTrue hfinite =>
    obtain ⟨numeral, htext, -⟩ := exists_numeral_floatText hfinite
    rw [← htext]
    exact numeral.value?_text depth h
  case isFalse hinfinite =>
    rw [floatText, if_neg hinfinite]
    exact value?_null depth rest

/-! ## Items and members -/

/-- Texts with commas between them start with the first of them. -/
theorem exists_skipBlank_joined {before : List Char} (hbefore : ∀ c ∈ before, isBlank c = true)
    {c : Char} (hc : isBlank c = false) (text : List Char) (texts : List (List Char))
    (rest : List Char) :
    ∃ cs, skipBlank (joined ((before ++ c :: text) :: texts) ++ rest) = c :: cs := by
  obtain ⟨more, hmore⟩ : ∃ more, joined ((before ++ c :: text) :: texts) =
      before ++ c :: (text ++ more) := by
    cases texts with
    | nil => exact ⟨[], by rw [joined, List.append_nil]⟩
    | cons next texts =>
      refine ⟨',' :: joined (next :: texts), ?_⟩
      rw [joined, List.append_assoc, List.cons_append]
  refine ⟨text ++ more ++ rest, ?_⟩
  rw [hmore, List.append_assoc, skipBlank_append hbefore, List.cons_append,
    skipBlank_of_not_blank hc]

theorem length_lt_of_skipBlank_eq {c : Char} (hc : isBlank c = false) {before more cs : List Char}
    (h : skipBlank cs = skipBlank (before ++ c :: more)) : more.length < cs.length := by
  have hle : (skipBlank cs).length ≤ cs.length := (List.dropWhile_sublist _).length_le
  have hlt : more.length < (skipBlank (before ++ c :: more)).length := by
    clear h hle
    induction before with
    | nil => simp [skipBlank_of_not_blank hc]
    | cons d before ih =>
      by_cases hd : isBlank d = true
      · have hskip : skipBlank (d :: before ++ c :: more) = skipBlank (before ++ c :: more) := by
          rw [skipBlank, List.cons_append, List.dropWhile_cons, if_pos hd, skipBlank]
        rwa [hskip]
      · rw [List.cons_append, skipBlank_of_not_blank (by simpa using hd)]
        simp only [List.length_cons, List.length_append]
        omega
  rw [h] at hle
  omega

/--
The reader of items undoes the writing of items, if it does so for each of them. It may leave blanks
behind an item.
-/
theorem itemsUpTo?_joined {α β : Type} {close : Char} (hclose : close = ']' ∨ close = '\x7d')
    {read? : List Char → Option (β × List Char)} {text : α → List Char} {result? : α → Option β}
    {blanks rest : List Char} (hblanks : ∀ c ∈ blanks, isBlank c = true) (items : List α)
    (hread : ∀ item ∈ items, ∀ rest, StopsNumber rest → ∃ behind,
      skipBlank behind = skipBlank rest ∧
        read? (skipBlank (text item ++ rest)) = (result? item).map fun value ↦ (value, behind))
    (hitems : items ≠ []) (cs : List Char)
    (hcs : skipBlank cs = skipBlank (joined (items.map text) ++ (blanks ++ close :: rest))) :
    itemsUpTo? close read? cs = (items.mapM result?).map fun values ↦ (values, rest) := by
  induction items generalizing cs with
  | nil => exact absurd rfl hitems
  | cons item items ih =>
    have hitem := hread item List.mem_cons_self
    have hclosing : isBlank close = false ∧ continuesNumber close = false := by
      rcases hclose with rfl | rfl <;> decide
    cases items with
    | nil =>
      obtain ⟨behind, hbehind, hitem⟩ :=
        hitem _ (stopsNumber_blanks_append hblanks (stopsRun_cons.2 hclosing.2))
      rw [List.map_singleton, joined] at hcs
      unfold itemsUpTo?
      rw [hcs, hitem]
      cases hresult : result? item with
      | none => simp [hresult]
      | some value =>
        simp only [Option.map_some, hbehind, skipBlank_append hblanks,
          skipBlank_of_not_blank hclosing.1, if_true, List.mapM_cons, List.mapM_nil, hresult]
        rfl
    | cons next items =>
      have hrest := ih (fun item hmem ↦ hread item (List.mem_cons_of_mem _ hmem))
        (List.cons_ne_nil _ _) _ rfl
      generalize hmore : joined ((next :: items).map text) ++ (blanks ++ close :: rest) = more
        at hrest
      have hcomma : ',' ≠ close := by
        rcases hclose with rfl | rfl <;> decide
      replace hcs : skipBlank cs = skipBlank (text item ++ ',' :: more) := by
        rw [hcs, List.map_cons, List.map_cons, joined, ← List.map_cons, ← hmore, List.append_assoc,
          List.cons_append]
      have hlength : more.length < cs.length := length_lt_of_skipBlank_eq (by decide) hcs
      have hstop : StopsNumber (',' :: more) := stopsRun_cons.2 (by decide)
      obtain ⟨behind, hbehind, hitem⟩ := hitem _ hstop
      unfold itemsUpTo?
      rw [hcs, hitem, List.mapM_cons]
      cases hresult : result? item with
      | none => rfl
      | some value =>
        have hskip := skipBlank_of_not_blank (show isBlank ',' = false by decide) more
        simp only [Option.map_some, hbehind, hskip, if_neg hcomma, hlength, and_self, if_true,
          hrest]
        cases (next :: items).mapM result? <;> rfl

/-- A key, a colon and a value are read if the key is read up to its closing quote. -/
theorem keyed?_member {before gap keyText text rest behind : List Char}
    (hbefore : ∀ c ∈ before, isBlank c = true) (hgap : ∀ c ∈ gap, isBlank c = true) {key : String}
    (hkey : Text.Quoted.decode? (keyText ++ (gap ++ ':' :: (text ++ rest))) =
      some (key.toList, gap ++ ':' :: (text ++ rest)))
    {read? : List Char → Option (Json × List Char)} {result : Option Json}
    (hread : read? (skipBlank (text ++ rest)) = result.map fun value ↦ (value, behind)) :
    keyed? read? (skipBlank (before ++ '"' :: (keyText ++ (gap ++ ':' :: (text ++ rest))))) =
      (result.map (key, ·)).map fun member ↦ (member, behind) := by
  have hcolon : behind? [':'] (skipBlank (gap ++ ':' :: (text ++ rest))) = some (text ++ rest) := by
    rw [skipBlank_append hgap]
    rfl
  rw [skipBlank_append hbefore, skipBlank_of_not_blank (by decide), keyed?, hkey]
  simp only [Option.bind_eq_bind, Option.bind_some, hcolon, hread, String.ofList_toList]
  cases result <;> rfl

theorem keyed?_memberText {before gap text rest : List Char}
    (hbefore : ∀ c ∈ before, isBlank c = true) (hgap : ∀ c ∈ gap, isBlank c = true)
    {read? : List Char → Option (Json × List Char)} {result : Option Json} (key : String)
    (hread : read? (skipBlank (text ++ rest)) = result.map fun value ↦ (value, rest)) :
    keyed? read? (skipBlank (memberText before gap key text ++ rest)) =
      (result.map (key, ·)).map fun member ↦ (member, rest) := by
  have htext : memberText before gap key text ++ rest = before ++
      '"' :: ((Text.Quoted.encode key.toList).tail ++ ([] ++ ':' :: (gap ++ text ++ rest))) := by
    simp only [memberText, Text.Quoted.encode, List.tail_cons, List.append_assoc, List.cons_append,
      List.nil_append]
  rw [htext]
  apply keyed?_member hbefore (List.forall_mem_nil _) (Text.Quoted.decode?_encode key.toList _)
  rw [List.append_assoc, skipBlank_append hgap, hread]

/-! ## Values -/

theorem value?_array (depth : Nat) {body : List Char} {c : Char} {cs : List Char}
    (hbody : skipBlank body = c :: cs) (hc : c ≠ ']') :
    value? (depth + 1) ('[' :: body) =
      (itemsUpTo? ']' (value? depth) (c :: cs)).map fun (items, rest) ↦ (array items, rest) := by
  rw [value?, hbody]
  split
  · simp_all
  · rfl

theorem value?_object (depth : Nat) {body : List Char} {c : Char} {cs : List Char}
    (hbody : skipBlank body = c :: cs) (hc : c ≠ '\x7d') :
    value? (depth + 1) ('\x7b' :: body) =
      (itemsUpTo? '\x7d' (keyed? (value? depth)) (c :: cs)).map fun (members, rest) ↦
        (object members, rest) := by
  rw [value?, hbody]
  split
  · simp_all
  · rfl

namespace Layout

variable (layout : Layout)

/-- A text of a value starts with a character of its own. -/
theorem exists_head_write (level : Nat) (value : Json) :
    ∃ c cs, layout.write level value = c :: cs ∧ startsValue c = true := by
  have hnumeral (numeral : Numeral) : ∃ c cs, numeral.text = c :: cs ∧ startsValue c = true := by
    obtain ⟨c, cs, hcons, hc⟩ := numeral.exists_head_text
    refine ⟨c, cs, hcons, ?_⟩
    rcases hc with rfl | hdigit
    · decide
    · rw [startsValue, hdigit, Bool.or_true]
  match value with
  | null => exact ⟨_, _, layout.write_null level, by decide⟩
  | bool true => exact ⟨_, _, layout.write_bool level true, by decide⟩
  | bool false => exact ⟨_, _, layout.write_bool level false, by decide⟩
  | integer n =>
    rw [layout.write_integer, ← Numeral.text_ofInt]
    exact hnumeral _
  | float x =>
    rw [layout.write_float]
    by_cases hfinite : x.isFinite = true
    · obtain ⟨numeral, htext, -⟩ := exists_numeral_floatText hfinite
      rw [← htext]
      exact hnumeral numeral
    · rw [floatText, if_neg hfinite]
      exact ⟨_, _, rfl, by decide⟩
  | string text => exact ⟨_, _, layout.write_string level text, by decide⟩
  | array [] => exact ⟨_, _, layout.write_array_nil level, by decide⟩
  | array (item :: items) => exact ⟨_, _, layout.write_array_cons level item items, by decide⟩
  | object [] => exact ⟨_, _, layout.write_object_nil level, by decide⟩
  | object (member :: members) =>
    exact ⟨_, _, layout.write_object_cons level member members, by decide⟩

theorem skipBlank_write_append (level : Nat) (value : Json) (rest : List Char) :
    skipBlank (layout.write level value ++ rest) = layout.write level value ++ rest := by
  obtain ⟨c, cs, hcons, hc⟩ := layout.exists_head_write level value
  rw [hcons, List.cons_append, skipBlank_of_not_blank (not_isBlank_of_startsValue hc)]

/-- The texts of values without parts, which are the same in every layout. -/
theorem value?_write_leaf (depth level : Nat) (value : Json) {rest : List Char}
    (h : StopsNumber rest) (harray : ∀ items, value ≠ array items)
    (hobject : ∀ members, value ≠ object members) :
    value? depth (layout.write level value ++ rest) =
      (reread? depth value).map fun value ↦ (value, rest) := by
  cases value with
  | null =>
    rw [layout.write_null, value?_null, reread?]
    rfl
  | bool value =>
    rw [layout.write_bool, value?_bool, reread?]
    rfl
  | integer n => rw [layout.write_integer, value?_integerText depth n h, reread?]
  | float x => rw [layout.write_float, value?_floatText depth x h]
  | string text =>
    rw [layout.write_string, value?_string, reread?]
    rfl
  | array items => exact absurd rfl (harray items)
  | object members => exact absurd rfl (hobject members)

/-- The values one deeper are read, so the items of an array are. -/
theorem value?_write_items {depth level : Nat}
    (hread : ∀ (value : Json) (rest : List Char), StopsNumber rest →
      value? depth (layout.write (level + 1) value ++ rest) =
        (reread? depth value).map fun value ↦ (value, rest))
    (item : Json) (items : List Json) (rest : List Char) :
    value? (depth + 1) (layout.write level (array (item :: items)) ++ rest) =
      (reread? (depth + 1) (array (item :: items))).map fun value ↦ (value, rest) := by
  have hitem (item : Json) (rest : List Char) (h : StopsNumber rest) :
      value? depth (skipBlank (layout.before (level + 1) ++
        layout.write (level + 1) item ++ rest)) =
          (reread? depth item).map fun value ↦ (value, rest) := by
    rw [List.append_assoc, skipBlank_append (layout.blank_before _),
      layout.skipBlank_write_append, hread item rest h]
  have hbody : ∃ c cs, skipBlank (joined ((item :: items).map fun item ↦
      layout.before (level + 1) ++ layout.write (level + 1) item) ++
        (layout.before level ++ ']' :: rest)) = c :: cs ∧ startsValue c = true := by
    obtain ⟨c, text, hcons, hc⟩ := layout.exists_head_write (level + 1) item
    rw [List.map_cons, hcons]
    obtain ⟨cs, hcs⟩ := exists_skipBlank_joined (layout.blank_before (level + 1))
      (not_isBlank_of_startsValue hc) text _ _
    exact ⟨c, cs, hcs, hc⟩
  obtain ⟨c, cs, hbody, hc⟩ := hbody
  have hitems : itemsUpTo? ']' (value? depth) (c :: cs) =
      ((item :: items).mapM (reread? depth)).map fun values ↦ (values, rest) := by
    apply itemsUpTo?_joined (.inl rfl) (layout.blank_before level) (item :: items)
      (fun item _ rest h ↦ ⟨rest, rfl, hitem item rest h⟩) (List.cons_ne_nil _ _)
    rw [skipBlank_of_not_blank (not_isBlank_of_startsValue hc), ← hbody]
  rw [layout.write_array_cons, List.cons_append, List.append_assoc, List.append_assoc,
    List.singleton_append, value?_array depth hbody (ne_bracket_of_startsValue hc), hitems,
    reread?]
  cases (item :: items).mapM (reread? depth) <;> rfl

/-- The values one deeper are read, so the members of an object are. -/
theorem value?_write_members {depth level : Nat}
    (hread : ∀ (value : Json) (rest : List Char), StopsNumber rest →
      value? depth (layout.write (level + 1) value ++ rest) =
        (reread? depth value).map fun value ↦ (value, rest))
    (member : String × Json) (members : List (String × Json)) (rest : List Char) :
    value? (depth + 1) (layout.write level (object (member :: members)) ++ rest) =
      (reread? (depth + 1) (object (member :: members))).map fun value ↦ (value, rest) := by
  have hmember (member : String × Json) (rest : List Char) (h : StopsNumber rest) :
      keyed? (value? depth) (skipBlank (memberText (layout.before (level + 1)) layout.gap
        member.1 (layout.write (level + 1) member.2) ++ rest)) =
          ((reread? depth member.2).map (member.1, ·)).map fun member ↦ (member, rest) := by
    apply keyed?_memberText (layout.blank_before _) layout.blank_gap
    rw [layout.skipBlank_write_append, hread member.2 rest h]
  have hbody : ∃ cs, skipBlank (joined ((member :: members).map fun member ↦
      memberText (layout.before (level + 1)) layout.gap member.1
        (layout.write (level + 1) member.2)) ++
          (layout.before level ++ '\x7d' :: rest)) = '"' :: cs := by
    rw [List.map_cons, memberText, Text.Quoted.encode, List.cons_append]
    exact exists_skipBlank_joined (layout.blank_before (level + 1)) (by decide) _ _ _
  obtain ⟨cs, hbody⟩ := hbody
  have hmembers : itemsUpTo? '\x7d' (keyed? (value? depth)) ('"' :: cs) =
      ((member :: members).mapM fun member ↦
        (reread? depth member.2).map (member.1, ·)).map fun values ↦ (values, rest) := by
    apply itemsUpTo?_joined (.inr rfl) (layout.blank_before level) (member :: members)
      (fun member _ rest h ↦ ⟨rest, rfl, hmember member rest h⟩) (List.cons_ne_nil _ _)
    rw [skipBlank_of_not_blank (by decide), ← hbody]
  rw [layout.write_object_cons, List.cons_append, List.append_assoc, List.append_assoc,
    List.singleton_append, value?_object depth hbody (by decide), hmembers, reread?]
  cases (member :: members).mapM fun member ↦ (reread? depth member.2).map (member.1, ·) <;> rfl

/-- What is read from a text of a value, whatever stands behind the text. -/
theorem value?_write (depth level : Nat) (value : Json) {rest : List Char}
    (h : StopsNumber rest) :
    value? depth (layout.write level value ++ rest) =
      (reread? depth value).map fun value ↦ (value, rest) := by
  induction depth generalizing level value rest with
  | zero =>
    match value with
    | array [] => rw [layout.write_array_nil, reread?]; rfl
    | array (item :: items) => rw [layout.write_array_cons, reread?]; rfl
    | object [] => rw [layout.write_object_nil, reread?]; rfl
    | object (member :: members) => rw [layout.write_object_cons, reread?]; rfl
    | null | bool _ | integer _ | float _ | string _ =>
      exact layout.value?_write_leaf 0 level _ h (fun _ ↦ nofun) (fun _ ↦ nofun)
  | succ depth ih =>
    match value with
    | array [] => rw [layout.write_array_nil, reread?]; rfl
    | object [] => rw [layout.write_object_nil, reread?]; rfl
    | array (item :: items) =>
      apply layout.value?_write_items
      intro value rest h
      exact ih (level + 1) value h
    | object (member :: members) =>
      apply layout.value?_write_members
      intro value rest h
      exact ih (level + 1) value h
    | null | bool _ | integer _ | float _ | string _ =>
      exact layout.value?_write_leaf _ level _ h (fun _ ↦ nofun) (fun _ ↦ nofun)

/-- What is read from a text that holds a value alone. -/
theorem read?_write (value : Json) :
    read? (String.ofList (layout.write 0 value)) = reread? maxDepth value := by
  have hvalue := layout.value?_write maxDepth 0 value (Text.stopsRun_nil continuesNumber)
  have hskip := layout.skipBlank_write_append 0 value []
  rw [List.append_nil] at hvalue hskip
  rw [read?, String.toList_ofList, hskip, hvalue]
  cases reread? maxDepth value <;> rfl

end Layout

theorem read?_compact (value : Json) : read? value.compact = reread? maxDepth value :=
  compactLayout.read?_write value

end SchemaLang.Json
