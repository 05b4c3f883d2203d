import SchemaLang.Text.Quoted

/-!
# Quoted texts are read back

What is written between the quotes is read back as it was, whatever stands behind the closing quote:
each character is escaped so that reading takes exactly its escape away (`readChar?_escape`), and no
escape begins with a quote. What else is read is any other way to write the same characters
(`IsBody`), since it is told where a character ends by what it starts with.
-/

namespace SchemaLang.Text.Quoted

theorem hexValue?_hexDigit {n : Nat} (h : n < 16) : hexValue? (hexDigit n) = some n := by
  revert n
  decide

/-- The character of a code of one unit that is no half of a pair. -/
theorem fromCode?_of_lt {code : Nat} (h : code < 0xD800) (rest : List Char) :
    fromCode? code rest = some (Char.ofNat code, rest) := by
  unfold fromCode?
  exact if_pos (Or.inl h)

theorem readChar?_code {a b c d : Char} (rest : List Char) :
    readChar? ('\\' :: 'u' :: a :: b :: c :: d :: rest) =
      (code? a b c d).bind fun code ↦ fromCode? code rest := by
  rw [readChar?]
  rfl

theorem readChar?_self {c : Char} (hquote : c ≠ '"') (hbackslash : c ≠ '\\') (hspace : 32 ≤ c.toNat)
    (rest : List Char) : readChar? (c :: rest) = some (c, rest) := by
  have hplain : ¬(c = '"' ∨ c.toNat < 32) := by
    rintro (h | h)
    · exact hquote h
    · omega
  unfold readChar?
  split
  case h_4 heq =>
    cases heq
    rw [if_neg hplain]
  all_goals simp_all

/-- An escape is read as the character it was written for. -/
theorem readChar?_escape (c : Char) (rest : List Char) :
    readChar? (escape c ++ rest) = some (c, rest) := by
  unfold escape
  split
  case isTrue h => subst h; rfl
  case isFalse hquote =>
  split
  case isTrue h => subst h; rfl
  case isFalse hbackslash =>
  split
  case isTrue h => subst h; rfl
  case isFalse =>
  split
  case isTrue h => subst h; rfl
  case isFalse =>
  split
  case isTrue h => subst h; rfl
  case isFalse =>
  split
  case isTrue h =>
    have hc : c = Char.ofNat 8 := by rw [← h, Char.ofNat_toNat]
    subst hc
    rfl
  case isFalse =>
  split
  case isTrue h =>
    have hc : c = Char.ofNat 12 := by rw [← h, Char.ofNat_toNat]
    subst hc
    rfl
  case isFalse =>
  split
  case isTrue h =>
    have hhigh := hexValue?_hexDigit (show c.toNat / 16 < 16 by omega)
    have hlow := hexValue?_hexDigit (show c.toNat % 16 < 16 by omega)
    have hzero : hexValue? '0' = some 0 := by decide
    have hcode : code? '0' '0' (hexDigit (c.toNat / 16)) (hexDigit (c.toNat % 16)) =
        some c.toNat := by
      rw [code?, hzero, hhigh, hlow]
      simp only [Option.bind_eq_bind, Option.bind_some, Option.pure_def, Option.some.injEq]
      omega
    calc
      _ = (code? '0' '0' (hexDigit (c.toNat / 16)) (hexDigit (c.toNat % 16))).bind
          fun code ↦ fromCode? code rest := readChar?_code rest
      _ = fromCode? c.toNat rest := by rw [hcode, Option.bind_some]
      _ = some (c, rest) := by rw [fromCode?_of_lt (by omega), Char.ofNat_toNat]
  case isFalse hspace => exact readChar?_self hquote hbackslash (by omega) rest

theorem head?_escape_append_ne_quote (c : Char) (rest : List Char) :
    (escape c ++ rest).head? ≠ some '"' := by
  intro h
  have hread := readChar?_escape c rest
  obtain ⟨behind, hbehind⟩ := List.head?_eq_some_iff.1 h
  rw [hbehind] at hread
  simp [readChar?] at hread

theorem decode?_quote (rest : List Char) : decode? ('"' :: rest) = some ([], rest) := by
  rw [decode?, List.head?_cons, if_pos rfl, List.tail_cons]

theorem decode?_escape (c : Char) (rest : List Char) :
    decode? (escape c ++ rest) = (decode? rest).map fun (text, rest) ↦ (c :: text, rest) := by
  rw [decode?, if_neg (head?_escape_append_ne_quote c rest)]
  split
  case h_1 hnone =>
    rw [readChar?_escape] at hnone
    cases hnone
  case h_2 hsome =>
    rw [readChar?_escape] at hsome
    cases hsome
    rfl

/-- A text that was written with its quotes is read back behind the opening quote. -/
theorem decode?_encode (text rest : List Char) :
    decode? ((encode text).tail ++ rest) = some (text, rest) := by
  unfold encode
  rw [List.tail_cons]
  induction text with
  | nil => exact decode?_quote rest
  | cons c text ih =>
    calc
      _ = decode? (escape c ++ ((text.flatMap escape ++ ['"']) ++ rest)) := by
        simp only [List.flatMap_cons, List.append_assoc]
      _ = some (c :: text, rest) := by
        rw [decode?_escape, ih]
        rfl

/-! ## The notation between quotes -/

/-- How one character can be written between the quotes. -/
inductive IsEscape : Char → List Char → Prop
  | plain {c : Char} (hquote : c ≠ '"') (hbackslash : c ≠ '\\') (hspace : 32 ≤ c.toNat) :
      IsEscape c [c]
  | simple {letter c : Char} (h : simpleEscape? letter = some c) : IsEscape c ['\\', letter]
  | code {a b c d : Char} {code : Nat} (hcode : code? a b c d = some code)
      (hwhole : code < 0xD800 ∨ 0xDFFF < code) :
      IsEscape (Char.ofNat code) ['\\', 'u', a, b, c, d]
  | pair {a b c d e f g h : Char} {high low : Nat} (hhigh : code? a b c d = some high)
      (hfirst : 0xD800 ≤ high ∧ high ≤ 0xDBFF) (hlow : code? e f g h = some low)
      (hsecond : 0xDC00 ≤ low ∧ low ≤ 0xDFFF) :
      IsEscape (Char.ofNat (0x10000 + (high - 0xD800) * 0x400 + (low - 0xDC00)))
        ['\\', 'u', a, b, c, d, '\\', 'u', e, f, g, h]

/-- How a text can be written between the quotes. -/
inductive IsBody : List Char → List Char → Prop
  | nil : IsBody [] []
  | cons {c : Char} {written text body : List Char} (hc : IsEscape c written)
      (htext : IsBody text body) : IsBody (c :: text) (written ++ body)

theorem readChar?_simple {letter : Char} (hletter : letter ≠ 'u') (rest : List Char) :
    readChar? ('\\' :: letter :: rest) = (simpleEscape? letter).map (·, rest) := by
  unfold readChar?
  split
  case h_1 heq => exact absurd (List.cons.inj (List.cons.inj heq).2).1 hletter
  case h_2 heq =>
    cases heq
    cases simpleEscape? letter <;> rfl
  case h_3 heq => cases heq
  case h_4 hsimple hend heq =>
    cases heq
    exact (hsimple letter rest rfl rfl).elim
  case h_5 heq => cases heq

/-- The first half of a pair takes the second half with it. -/
theorem fromCode?_pair {high : Nat} (hfirst : 0xD800 ≤ high ∧ high ≤ 0xDBFF) {a b c d : Char}
    (rest : List Char) : fromCode? high ('\\' :: 'u' :: a :: b :: c :: d :: rest) =
      (code? a b c d).bind fun low ↦
        if 0xDC00 ≤ low ∧ low ≤ 0xDFFF then
          some (Char.ofNat (0x10000 + (high - 0xD800) * 0x400 + (low - 0xDC00)), rest)
        else none := by
  unfold fromCode?
  rw [if_neg (by omega), if_neg (by omega)]
  rfl

/-- A written character is read, whatever stands behind it. -/
theorem IsEscape.readChar?_append {c : Char} {written : List Char} (h : IsEscape c written)
    (rest : List Char) : readChar? (written ++ rest) = some (c, rest) := by
  cases h with
  | plain hquote hbackslash hspace => exact readChar?_self hquote hbackslash hspace rest
  | @simple letter c h =>
    have hletter : letter ≠ 'u' := by
      rintro rfl
      cases h
    exact (readChar?_simple hletter rest).trans (by rw [h]; rfl)
  | code hcode hwhole =>
    refine (readChar?_code rest).trans ?_
    rw [hcode, Option.bind_some]
    unfold fromCode?
    exact if_pos hwhole
  | pair hhigh hfirst hlow hsecond =>
    refine (readChar?_code _).trans ?_
    rw [hhigh, Option.bind_some]
    refine (fromCode?_pair hfirst rest).trans ?_
    rw [hlow, Option.bind_some, if_pos hsecond]

theorem exists_of_fromCode? {code : Nat} {cs rest : List Char} {c : Char}
    (h : fromCode? code cs = some (c, rest)) {a b d e : Char} (hcode : code? a b d e = some code) :
    ∃ written, '\\' :: 'u' :: a :: b :: d :: e :: cs = written ++ rest ∧ IsEscape c written := by
  unfold fromCode? at h
  split at h
  case isTrue hwhole =>
    cases h
    exact ⟨_, rfl, .code hcode hwhole⟩
  case isFalse hwhole =>
  split at h
  case isTrue => cases h
  case isFalse hsecond =>
  split at h
  case h_1 =>
    obtain ⟨low, hlow, hread⟩ := Option.bind_eq_some_iff.1 h
    split at hread
    case isTrue hrange =>
      rw [Option.pure_def, Option.some.injEq, Prod.mk.injEq] at hread
      obtain ⟨rfl, rfl⟩ := hread
      exact ⟨_, rfl, .pair hcode ⟨by omega, by omega⟩ hlow hrange⟩
    case isFalse => cases hread
  case h_2 => cases h

/-- What is read as a character is one way to write it. -/
theorem exists_of_readChar? {cs rest : List Char} {c : Char} (h : readChar? cs = some (c, rest)) :
    ∃ written, cs = written ++ rest ∧ IsEscape c written := by
  unfold readChar? at h
  split at h
  case h_1 =>
    obtain ⟨code, hcode, hread⟩ := Option.bind_eq_some_iff.1 h
    exact exists_of_fromCode? hread hcode
  case h_2 =>
    obtain ⟨found, hfound, heq⟩ := Option.bind_eq_some_iff.1 h
    rw [Option.pure_def, Option.some.injEq, Prod.mk.injEq] at heq
    obtain ⟨rfl, rfl⟩ := heq
    exact ⟨_, rfl, .simple hfound⟩
  case h_3 => cases h
  case h_4 others hsimple hend =>
    split at h
    case isTrue => cases h
    case isFalse hplain =>
    cases h
    rw [not_or, Nat.not_lt] at hplain
    refine ⟨[_], rfl, .plain hplain.1 ?_ hplain.2⟩
    rintro rfl
    cases rest with
    | nil => exact hend rfl rfl
    | cons letter rest => exact hsimple letter rest rfl rfl
  case h_5 => cases h

theorem IsEscape.head?_append_ne_quote {c : Char} {written : List Char} (h : IsEscape c written)
    (rest : List Char) : (written ++ rest).head? ≠ some '"' := by
  have hread := h.readChar?_append rest
  intro hquote
  obtain ⟨behind, hbehind⟩ := List.head?_eq_some_iff.1 hquote
  rw [hbehind] at hread
  simp [readChar?] at hread

/-- A text is read from the way it is written, up to the closing quote. -/
theorem IsBody.decode?_append {text body : List Char} (h : IsBody text body) (rest : List Char) :
    decode? (body ++ '"' :: rest) = some (text, rest) := by
  induction h with
  | nil => exact decode?_quote rest
  | @cons c written text body hc _ ih =>
    rw [List.append_assoc, decode?, if_neg (hc.head?_append_ne_quote _)]
    split
    case h_1 hnone =>
      rw [hc.readChar?_append] at hnone
      cases hnone
    case h_2 hsome =>
      rw [hc.readChar?_append] at hsome
      cases hsome
      rw [ih]
      rfl

/-- What is read up to a closing quote is one way to write the text. -/
theorem exists_of_decode? {cs text rest : List Char} (h : decode? cs = some (text, rest)) :
    ∃ body, cs = body ++ '"' :: rest ∧ IsBody text body := by
  fun_induction decode? cs generalizing text rest with
  | case1 cs hquote =>
    cases h
    obtain ⟨behind, rfl⟩ := List.head?_eq_some_iff.1 hquote
    exact ⟨[], rfl, .nil⟩
  | case2 => cases h
  | case3 cs hquote c behind hread hlength ih =>
    obtain ⟨found, hfound, heq⟩ := Option.map_eq_some_iff.1 h
    cases heq
    obtain ⟨written, rfl, hwritten⟩ := exists_of_readChar? hread
    obtain ⟨body, rfl, hbody⟩ := ih hfound
    exact ⟨written ++ body, (List.append_assoc ..).symm, .cons hwritten hbody⟩

/-- Every text can be written between quotes. -/
theorem exists_isBody (text : List Char) : ∃ body, IsBody text body := by
  obtain ⟨body, -, hbody⟩ := exists_of_decode? (decode?_encode text [])
  exact ⟨body, hbody⟩

end SchemaLang.Text.Quoted
