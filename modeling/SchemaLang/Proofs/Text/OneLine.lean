import SchemaLang.Proofs.Number.Digits
import SchemaLang.Proofs.Text.Words

/-!
# Texts on one line

A text is on one line if it has no line feed. So are words and numbers, and what is put together
from texts on one line.
-/

namespace SchemaLang.Text

/-- A text has no line feed. -/
def OnOneLine (text : String) : Prop := '\n' ∉ text.toList

instance (text : String) : Decidable (OnOneLine text) :=
  inferInstanceAs (Decidable ('\n' ∉ text.toList))

namespace OnOneLine

theorem append {text more : String} (h : OnOneLine text) (hmore : OnOneLine more) :
    OnOneLine (text ++ more) := by
  rw [OnOneLine, String.toList_append, List.mem_append, not_or]
  exact ⟨h, hmore⟩

theorem join {texts : List String} (h : ∀ text ∈ texts, OnOneLine text) :
    OnOneLine (String.join texts) := by
  rw [OnOneLine, String.toList_join, List.mem_flatMap]
  rintro ⟨text, htext, hmem⟩
  exact h text htext hmem

theorem intercalate {gap : String} (hgap : OnOneLine gap) {texts : List String}
    (h : ∀ text ∈ texts, OnOneLine text) : OnOneLine (gap.intercalate texts) := by
  rw [OnOneLine, String.toList_intercalate]
  intro hmem
  rcases mem_of_mem_intercalate hmem with hline | ⟨part, hpart, hline⟩
  · exact hgap hline
  · obtain ⟨text, htext, rfl⟩ := List.mem_map.1 hpart
    exact h text htext hline

theorem ofWord {text : String} (h : IsWordText text.toList) : OnOneLine text := by
  intro hmem
  exact absurd (List.all_eq_true.1 h _ hmem) (by decide)

theorem ofNat (n : Nat) : OnOneLine (toString n) := by
  have htext : (toString n).toList = Decimal.toDigits n := by
    simp [Decimal.toDigits]
  rw [OnOneLine, htext]
  intro hmem
  exact absurd (Decimal.isDigit_of_mem_toDigits hmem) (by decide)

theorem ofInt (n : Int) : OnOneLine (toString n) := by
  cases n with
  | ofNat n => exact ofNat n
  | negSucc n => exact append (by decide) (ofNat (n + 1))

end OnOneLine

end SchemaLang.Text
