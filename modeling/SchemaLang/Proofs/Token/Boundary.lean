import SchemaLang.Proofs.Text.Run
import SchemaLang.Proofs.Token.Choice

/-!
# Where a lexeme ends

Whether a lexeme ends at some place depends on its own text and on how the text behind it starts,
and on nothing else (`lexeme?_append`). Most forms are stopped by one character that does not
continue them. Only a number without a point looks two characters ahead, since a point belongs to it
exactly when a digit follows. What stands by itself is a lexeme if all of it continues its start.
-/

namespace SchemaLang.LexemeForm

open Text (StopsRun stopsRun_cons length_takeWhile_append all_of_length_takeWhile)

/-! ## Numbers -/

/-- The length of a point and the digits behind it, if there are any. -/
def fractionLength : List Char → Nat
  | '.' :: rest => if digitCount rest = 0 then 0 else 1 + digitCount rest
  | _ => 0

theorem fractionLength_of_ne {text : List Char} (h : ∀ rest, text = '.' :: rest → False) :
    fractionLength text = 0 := by
  unfold fractionLength
  split
  · exact (h _ rfl).elim
  · rfl

theorem unsignedLength?_eq (text : List Char) :
    unsignedLength? text = if digitCount text = 0 then none
      else some (digitCount text + fractionLength (text.drop (digitCount text))) := by
  unfold unsignedLength?
  dsimp only
  split
  · rfl
  · generalize text.drop (digitCount text) = rest
    split
    case h_1 fraction =>
      rw [fractionLength]
      split
      · rfl
      · rw [Nat.add_assoc]
    case h_2 hpoint => rw [fractionLength_of_ne hpoint, Nat.add_zero]

theorem digitCount_le (text : List Char) : digitCount text ≤ text.length :=
  (List.takeWhile_sublist _).length_le

theorem digitCount_eq_zero {text : List Char} :
    digitCount text = 0 ↔ StopsRun Text.isDecimalDigit text := by
  cases text with
  | nil => simp [digitCount, StopsRun]
  | cons c text => by_cases hc : Text.isDecimalDigit c <;> simp [digitCount, StopsRun, hc]

theorem digitCount_append (text rest : List Char) :
    digitCount (text ++ rest) =
      if digitCount text = text.length then text.length + digitCount rest
      else digitCount text := by
  unfold digitCount
  induction text with
  | nil => simp
  | cons c text ih =>
    by_cases hc : Text.isDecimalDigit c
    · simp only [List.cons_append, List.takeWhile_cons, hc, if_true, List.length_cons, ih,
        Nat.succ_inj]
      split <;> omega
    · simp [hc]

theorem digitCount_append_eq_length (text rest : List Char) :
    digitCount (text ++ rest) = text.length ↔
      digitCount text = text.length ∧ StopsRun Text.isDecimalDigit rest :=
  length_takeWhile_append text rest

theorem fractionLength_append {text : List Char} (htext : text ≠ []) (rest : List Char) :
    fractionLength (text ++ rest) = text.length ↔
      fractionLength text = text.length ∧ StopsRun Text.isDecimalDigit rest := by
  cases text with
  | nil => exact absurd rfl htext
  | cons c text =>
    by_cases hc : c = '.'
    · have hlength (n m : Nat) : (if n = 0 then 0 else 1 + n) = m + 1 ↔ m ≠ 0 ∧ n = m := by
        split <;> omega
      rw [hc, List.cons_append, fractionLength, fractionLength, List.length_cons, hlength, hlength,
        digitCount_append_eq_length, and_assoc]
    · simp [fractionLength, hc]

/-- Whether a text starts with a point and a digit. -/
def startsFraction : List Char → Bool
  | '.' :: c :: _ => Text.isDecimalDigit c
  | _ => false

theorem fractionLength_eq_zero {text : List Char} :
    fractionLength text = 0 ↔ startsFraction text = false := by
  unfold startsFraction
  split
  case h_1 c rest =>
    rw [fractionLength]
    by_cases hc : Text.isDecimalDigit c <;> simp [digitCount, hc]
  case h_2 hpoint =>
    unfold fractionLength
    split
    case h_1 rest =>
      cases rest with
      | nil => simp [digitCount]
      | cons c rest => exact (hpoint c rest rfl).elim
    case h_2 => simp

/-- The end of a number: no digit follows, and if it has no point, no point and digit either. -/
def StopsNumber (text rest : List Char) : Prop :=
  StopsRun Text.isDecimalDigit rest ∧ ('.' ∈ text ∨ startsFraction rest = false)

theorem unsignedLength?_append (text rest : List Char) :
    unsignedLength? (text ++ rest) = some text.length ↔
      unsignedLength? text = some text.length ∧ StopsNumber text rest := by
  rw [unsignedLength?_eq, unsignedLength?_eq, digitCount_append]
  by_cases hcount : digitCount text = text.length
  · have hpoint : '.' ∉ text := fun hmem ↦
      absurd (all_of_length_takeWhile hcount '.' hmem) (by decide)
    rw [if_pos hcount, hcount, List.drop_length, StopsNumber, ← digitCount_eq_zero,
      ← fractionLength_eq_zero]
    by_cases hrest : digitCount rest = 0
    · rw [hrest, Nat.add_zero, List.drop_left]
      by_cases htext : text.length = 0 <;> simp [htext, hpoint, fractionLength]
    · simp [hrest]
      omega
  · have hlt : digitCount text < text.length := by
      have := digitCount_le text
      omega
    obtain ⟨more, hmore⟩ : ∃ more, more = text.drop (digitCount text) := ⟨_, rfl⟩
    have hlength : more.length = text.length - digitCount text := by
      rw [hmore, List.length_drop]
    have hne : more ≠ [] := by
      intro h
      rw [h, List.length_nil] at hlength
      omega
    rw [if_neg hcount, List.drop_append_of_le_length (Nat.le_of_lt hlt), ← hmore]
    have happend := fractionLength_append hne rest
    have hpoint (h : fractionLength more = more.length) : '.' ∈ text := by
      refine List.mem_of_mem_drop (i := digitCount text) ?_
      rw [← hmore]
      by_contra hnot
      have hzero : fractionLength more = 0 := fractionLength_of_ne fun rest hrest ↦
        hnot (hrest ▸ List.mem_cons_self)
      exact hne (List.length_eq_zero_iff.1 (h ▸ hzero))
    by_cases hzero : digitCount text = 0
    · simp [hzero]
    · have hsum (n : Nat) : digitCount text + n = text.length ↔ n = more.length := by
        omega
      rw [if_neg hzero, if_neg hzero, Option.some.injEq, Option.some.injEq, hsum, hsum, happend]
      constructor
      · intro ⟨hfraction, hrest⟩
        exact ⟨hfraction, hrest, .inl (hpoint hfraction)⟩
      · intro ⟨hfraction, hrest⟩
        exact ⟨hfraction, hrest.1⟩

theorem numberLength?_append (c : Char) (text rest : List Char) :
    numberLength? (c :: text ++ rest) = some (c :: text).length ↔
      numberLength? (c :: text) = some (c :: text).length ∧ StopsNumber (c :: text) rest := by
  by_cases hc : c = '-'
  · have hstops : StopsNumber ('-' :: text) rest ↔ StopsNumber text rest := by
      simp [StopsNumber]
    have hminus (cs : List Char) : numberLength? ('-' :: cs) = some (text.length + 1) ↔
        unsignedLength? cs = some text.length := by
      simp [numberLength?]
    rw [hc, List.cons_append, List.length_cons, hminus, hminus, hstops, unsignedLength?_append]
  · have hplain (cs : List Char) : numberLength? (c :: cs) = unsignedLength? (c :: cs) := by
      unfold numberLength?
      split
      · next heq => exact absurd (List.cons.inj heq).1 hc
      · rfl
    rw [List.cons_append, hplain, hplain, ← List.cons_append, unsignedLength?_append]

/-! ## Strings -/

theorem stringLength?_append (text rest : List Char) :
    stringLength? (text ++ rest) = some text.length ↔ stringLength? text = some text.length := by
  fun_induction stringLength? text with
  | case1 =>
    have hpos : stringLength? rest ≠ some 0 := by
      unfold stringLength?
      split <;> simp
    simp [hpos]
  | case2 text =>
    cases text <;> simp [stringLength?]
  | case3 =>
    cases rest <;> simp [stringLength?]
  | case4 text => simp [stringLength?]
  | case5 c text hc ih =>
    simp [stringLength?, hc, ih]
  | case6 c text hquote hend hescape ih =>
    have hbackslash : c ≠ '\\' := by
      intro h
      cases text with
      | nil => exact hend h rfl
      | cons d text => exact hescape d text h rfl
    rw [List.cons_append, stringLength?, List.length_cons]
    · simp [ih]
    · exact hquote
    · exact fun h _ ↦ hbackslash h
    · exact fun _ _ h _ ↦ hbackslash h

theorem quotedLength?_append (c : Char) (text rest : List Char) :
    quotedLength? (c :: text ++ rest) = some (c :: text).length ↔
      quotedLength? (c :: text) = some (c :: text).length := by
  by_cases hc : c = '"'
  · simp [quotedLength?, hc, stringLength?_append]
  · simp [quotedLength?, hc]

/-! ## Runs and comments -/

theorem runLength?_append (first others : Char → Bool) (c : Char) (text rest : List Char) :
    runLength? first others (c :: text ++ rest) = some (c :: text).length ↔
      runLength? first others (c :: text) = some (c :: text).length ∧ StopsRun others rest := by
  have hsum (n : Nat) : 1 + n = text.length + 1 ↔ n = text.length := by
    omega
  simp only [List.cons_append, runLength?, List.length_cons]
  split
  · rw [Option.some.injEq, Option.some.injEq, hsum, hsum, length_takeWhile_append]
  · simp

theorem commentLength?_append (c : Char) (text rest : List Char) :
    commentLength? (c :: text ++ rest) = some (c :: text).length ↔
      commentLength? (c :: text) = some (c :: text).length ∧ StopsRun (· ≠ '\n') rest := by
  cases text with
  | nil =>
    have hshort {cs : List Char} : commentLength? cs ≠ some 1 := fun h ↦ by
      obtain ⟨body, -, hlength⟩ := commentLength?_eq_some.1 h
      omega
    exact iff_of_false hshort fun h ↦ hshort h.1
  | cons d text =>
    by_cases hslashes : c = '/' ∧ d = '/'
    · obtain ⟨rfl, rfl⟩ := hslashes
      have hsum (n : Nat) : 2 + n = text.length + 2 ↔ n = text.length := by
        omega
      simp only [List.cons_append, commentLength?, List.length_cons]
      rw [Option.some.injEq, Option.some.injEq, hsum, hsum, length_takeWhile_append]
    · have hnone (cs : List Char) (n : Nat) : commentLength? (c :: d :: cs) ≠ some n := fun h ↦ by
        obtain ⟨body, heq, -⟩ := commentLength?_eq_some.1 h
        cases heq
        exact hslashes ⟨rfl, rfl⟩
      exact iff_of_false (hnone _ _) fun h ↦ hnone _ _ h.1

/-! ## Lexemes -/

/-- What follows a lexeme does not continue it. -/
def Stops : LexemeForm → List Char → List Char → Prop
  | blank, _, rest => StopsRun Text.isWhiteSpace rest
  | comment, _, rest => StopsRun (· ≠ '\n') rest
  | word, _, rest => StopsRun continuesWord rest
  | number, text, rest => StopsNumber text rest
  | string, _, _ | mark, _, _ => True

theorem length?_append (form : LexemeForm) (text rest : List Char) :
    form.length? (text ++ rest) = some text.length ↔
      form.length? text = some text.length ∧ Stops form text rest := by
  cases text with
  | nil =>
    have hpos {cs : List Char} : form.length? cs ≠ some 0 := fun h ↦
      Nat.lt_irrefl 0 (length?_pos h)
    exact iff_of_false hpos fun h ↦ hpos h.1
  | cons c text =>
    cases form with
    | blank | word => exact runLength?_append _ _ c text rest
    | comment => exact commentLength?_append c text rest
    | number => exact numberLength?_append c text rest
    | string => exact (quotedLength?_append c text rest).trans (and_iff_left trivial).symm
    | mark =>
      exact (runLength?_append _ _ c text rest).trans
        (and_congr_right fun _ ↦ iff_of_true (fun _ _ ↦ rfl) trivial)

theorem lexeme?_append (form : LexemeForm) (text rest : List Char) :
    lexeme? (text ++ rest) = some (form, text.length) ↔
      lexeme? text = some (form, text.length) ∧ Stops form text rest := by
  rw [lexeme?_iff_length?, lexeme?_iff_length?, length?_append]

/-! ## What a lexeme takes -/

theorem stringLength?_le {text : List Char} {n : Nat} (h : stringLength? text = some n) :
    n ≤ text.length := by
  fun_induction stringLength? text generalizing n with
  | case1 | case3 | case4 => simp at h
  | case2 text =>
    simp only [Option.some.injEq] at h
    simp only [List.length_cons]
    omega
  | case5 c text hc ih =>
    obtain ⟨m, hm, rfl⟩ := Option.map_eq_some_iff.1 h
    have := ih hm
    simp only [List.length_cons]
    omega
  | case6 c text hquote hend hescape ih =>
    obtain ⟨m, hm, rfl⟩ := Option.map_eq_some_iff.1 h
    have := ih hm
    simp only [List.length_cons]
    omega

theorem unsignedLength?_le {text : List Char} {n : Nat} (h : unsignedLength? text = some n) :
    n ≤ text.length := by
  have hfraction (text : List Char) : fractionLength text ≤ text.length := by
    unfold fractionLength
    split
    case h_1 rest =>
      have := digitCount_le rest
      simp only [List.length_cons]
      split <;> omega
    case h_2 => exact Nat.zero_le _
  have hcount := digitCount_le text
  have hrest := hfraction (text.drop (digitCount text))
  rw [unsignedLength?_eq] at h
  rw [List.length_drop] at hrest
  split at h
  · simp at h
  · simp only [Option.some.injEq] at h
    omega

theorem length?_le {form : LexemeForm} {text : List Char} {n : Nat}
    (h : form.length? text = some n) : n ≤ text.length := by
  have hrun (p : Char → Bool) (text : List Char) : (text.takeWhile p).length ≤ text.length :=
    (List.takeWhile_sublist p).length_le
  cases form with
  | blank | word | mark =>
    obtain ⟨c, rest, rfl, -, rfl⟩ := runLength?_eq_some.1 h
    rw [List.length_cons, Nat.add_comm]
    exact Nat.succ_le_succ (hrun _ rest)
  | comment =>
    obtain ⟨body, rfl, rfl⟩ := commentLength?_eq_some.1 h
    rw [List.length_cons, List.length_cons, Nat.add_comm]
    exact Nat.add_le_add_right (hrun _ body) 2
  | string =>
    obtain ⟨rest, m, rfl, hm, rfl⟩ := quotedLength?_eq_some.1 h
    exact Nat.succ_le_succ (stringLength?_le hm)
  | number =>
    obtain hunsigned | ⟨rest, m, rfl, hm, rfl⟩ := numberLength?_eq_some.1 h
    · exact unsignedLength?_le hunsigned
    · exact Nat.succ_le_succ (unsignedLength?_le hm)

theorem lexeme?_le {text : List Char} {form : LexemeForm} {n : Nat}
    (h : lexeme? text = some (form, n)) : n ≤ text.length :=
  length?_le (lexeme?_iff_length?.1 h)

/-- What is cut off the front of a text is a lexeme by itself, and the rest stops it. -/
theorem lexeme?_take {text : List Char} {form : LexemeForm} {n : Nat}
    (h : lexeme? text = some (form, n)) :
    lexeme? (text.take n) = some (form, (text.take n).length) ∧
      Stops form (text.take n) (text.drop n) := by
  have hlength : (text.take n).length = n := List.length_take_of_le (lexeme?_le h)
  rw [← lexeme?_append, List.take_append_drop, hlength, h]

/-! ## Words -/

/-- Before a word it does not matter which word it is. -/
theorem stops_congr_word {c d : Char} (hc : startsWord c = true) (hd : startsWord d = true)
    (form : LexemeForm) (text before rest other : List Char) :
    Stops form text (before ++ c :: rest) ↔ Stops form text (before ++ d :: other) := by
  have hrun (p : Char → Bool) (hp : p c = p d) :
      StopsRun p (before ++ c :: rest) ↔ StopsRun p (before ++ d :: other) := by
    cases before <;> simp [StopsRun, hp]
  have hblank : Text.isWhiteSpace c = Text.isWhiteSpace d := by
    rw [not_isWhiteSpace_of_startsWord hc, not_isWhiteSpace_of_startsWord hd]
  have hdigit : Text.isDecimalDigit c = Text.isDecimalDigit d := by
    rw [not_isDecimalDigit_of_startsWord hc, not_isDecimalDigit_of_startsWord hd]
  have hword : continuesWord c = continuesWord d := by
    rw [continuesWord_of_startsWord hc, continuesWord_of_startsWord hd]
  have hline : decide (c ≠ '\n') = decide (d ≠ '\n') := by
    rw [decide_eq_true (ne_of_startsWord hc (by decide)),
      decide_eq_true (ne_of_startsWord hd (by decide))]
  have hfraction :
      startsFraction (before ++ c :: rest) = startsFraction (before ++ d :: other) := by
    have hpoint {c : Char} (hc : startsWord c = true) (rest : List Char) :
        startsFraction (c :: rest) = false := by
      have hne : c ≠ '.' := ne_of_startsWord hc (by decide)
      simp [startsFraction, hne]
    cases before with
    | nil => rw [List.nil_append, List.nil_append, hpoint hc, hpoint hd]
    | cons a before =>
      by_cases ha : a = '.'
      · cases before <;> simp [ha, startsFraction, hdigit]
      · simp [ha, startsFraction]
  cases form with
  | blank => exact hrun _ hblank
  | comment => exact hrun _ hline
  | word => exact hrun _ hword
  | number => exact and_congr (hrun _ hdigit) (or_congr Iff.rfl (by rw [hfraction]))
  | string => exact Iff.rfl
  | mark => exact Iff.rfl

/-! ## Lexemes by themselves -/

/-- A run by itself: a first character and characters that continue it. -/
theorem runLength?_eq_length {first others : Char → Bool} {text : List Char} :
    runLength? first others text = some text.length ↔
      ∃ c rest, text = c :: rest ∧ first c = true ∧ ∀ d ∈ rest, others d = true := by
  rw [runLength?_eq_some]
  refine exists_congr fun c ↦ exists_congr fun rest ↦ and_congr_right fun htext ↦
    and_congr_right fun _ ↦ ?_
  rw [htext, List.length_cons, Nat.add_comm, Nat.add_right_cancel_iff]
  exact ⟨all_of_length_takeWhile, fun h ↦ congrArg _ (List.takeWhile_eq_self_iff.2 h)⟩

/-- A word by itself: a start and characters that continue it. -/
theorem lexeme?_word_iff {text : List Char} :
    lexeme? text = some (word, text.length) ↔
      ∃ c rest, text = c :: rest ∧ startsWord c = true ∧ rest.all continuesWord = true := by
  simp only [List.all_eq_true]
  exact lexeme?_iff_length?.trans runLength?_eq_length

/-- White space by itself. -/
theorem lexeme?_blank_iff {text : List Char} :
    lexeme? text = some (blank, text.length) ↔
      text ≠ [] ∧ ∀ c ∈ text, Text.isWhiteSpace c = true := by
  refine lexeme?_iff_length?.trans (runLength?_eq_length.trans ?_)
  constructor
  · rintro ⟨c, rest, rfl, hc, hrest⟩
    exact ⟨List.cons_ne_nil _ _, List.forall_mem_cons.2 ⟨hc, hrest⟩⟩
  · intro ⟨hne, hall⟩
    obtain ⟨c, rest, rfl⟩ := List.exists_cons_of_ne_nil hne
    exact ⟨c, rest, rfl, List.forall_mem_cons.1 hall⟩

/-- A comment by itself: two slashes and the rest of a line. -/
theorem lexeme?_comment_iff {text : List Char} :
    lexeme? text = some (comment, text.length) ↔
      ∃ body, text = '/' :: '/' :: body ∧ '\n' ∉ body := by
  refine lexeme?_iff_length?.trans (commentLength?_eq_some.trans ?_)
  refine exists_congr fun body ↦ and_congr_right fun htext ↦ ?_
  rw [htext, List.length_cons, List.length_cons, Nat.add_comm, Nat.add_right_cancel_iff]
  constructor
  · intro hlength hmem
    have hline := all_of_length_takeWhile hlength _ hmem
    simp at hline
  · intro hbody
    refine congrArg List.length (List.takeWhile_eq_self_iff.2 fun c hc ↦ ?_)
    exact decide_eq_true (ne_of_mem_of_not_mem hc hbody)

/-- A number starts with a minus or with a digit. -/
theorem head_of_number {c : Char} {rest : List Char} {n : Nat}
    (h : lexeme? (c :: rest) = some (number, n)) : c = '-' ∨ Text.isDecimalDigit c = true := by
  obtain hunsigned | ⟨_, _, heq, -⟩ := numberLength?_eq_some.1 (lexeme?_iff_length?.1 h)
  · exact .inr (isDecimalDigit_of_unsignedLength? hunsigned)
  · exact .inl (List.cons.inj heq).1

end SchemaLang.LexemeForm
