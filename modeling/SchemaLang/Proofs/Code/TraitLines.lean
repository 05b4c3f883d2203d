import SchemaLang.Proofs.Code.References
import SchemaLang.Proofs.Text.Lines
import SchemaLang.Proofs.Text.OneLine

/-!
# The lines of a trait

The text of a trait is a comment, the line that opens it, a block for each method with blank lines
between them, and the line that closes it (`Trait.lines_text`). A block is the comment on a timeout,
if there is one, and the line that declares the method. As long as no name in the trait holds a line
feed, all of these are single lines but for the comments, which have the line feeds of what they
show.
-/

namespace SchemaLang.Code

open Text (OnOneLine)

/-! ## Declarations -/

/-- The text of a type is on one line if the names of the structs in it are. -/
theorem CodeType.onOneLine_text {type : CodeType}
    (h : ∀ name ∈ type.structNames, OnOneLine name) : OnOneLine type.text := by
  induction type with
  | integer signed bits => exact .append (by cases signed <;> decide) (.ofNat bits)
  | struct name => exact h name List.mem_cons_self
  | list item ih => exact .append (.append (by decide) (ih h)) (by decide)
  | optional value ih => exact .append (.append (by decide) (ih h)) (by decide)
  | _ => decide

namespace Trait

/-- A method is declared on one line if no name in the declaration holds a line feed. -/
theorem onOneLine_signature {method : TraitMethod} (hname : OnOneLine method.name)
    (hparameters : ∀ parameter ∈ method.parameters, OnOneLine parameter.1)
    (hmentions : ∀ name ∈ method.mentions, OnOneLine name) : OnOneLine (signature method) := by
  have hparameter : ∀ text ∈ method.parameters.map fun parameter ↦ ", " ++ parameter.1 ++ ": " ++
      parameter.2.text, OnOneLine text := by
    rw [List.forall_mem_map]
    intro parameter hparameter
    have htype : OnOneLine parameter.2.text := CodeType.onOneLine_text fun name hname ↦
      hmentions name (List.mem_append_left _ (List.mem_flatMap.2 ⟨parameter, hparameter, hname⟩))
    exact .append (.append (.append (by decide) (hparameters parameter hparameter)) (by decide))
      htype
  have hresult : ∀ text ∈ method.results.map CodeType.text, OnOneLine text := by
    rw [List.forall_mem_map]
    intro type htype
    exact CodeType.onOneLine_text fun name hname ↦
      hmentions name (List.mem_append_right _ (List.mem_flatMap.2 ⟨type, htype, hname⟩))
  have hresults : OnOneLine (resultsText method.results) := by
    unfold resultsText
    split
    case h_1 => decide
    case h_2 type hresults =>
      rw [hresults, List.map_singleton, List.forall_mem_singleton] at hresult
      exact hresult
    case h_3 => exact .append (.append (by decide) (.intercalate (by decide) hresult)) (by decide)
  exact .append (.append (.append (.append (.append (.append (by decide) hname) (by decide))
    (.join hparameter)) (by decide)) hresults) (by decide)

/-! ## Blocks -/

/-- The lines of the comment on a timeout. -/
def commentLines (timeout : Option Literal) : List (List Char) :=
  match timeout with
  | some timeout => Text.lines ("    /// Timeout: " ++ timeout.display ++ ".").toList
  | none => []

/-- The comment on a timeout starts as a comment. -/
theorem exists_commentLines (timeout : Literal) : ∃ first more,
    commentLines (some timeout) = first :: more ∧ "    /// ".toList <+: first := by
  obtain ⟨rest, later, hrest⟩ :=
    List.exists_cons_of_ne_nil (Text.lines_ne_nil ("Timeout: " ++ timeout.display ++ ".").toList)
  have hmark : '\n' ∉ "    /// ".toList := by
    decide
  refine ⟨"    /// ".toList ++ rest, later, ?_, List.prefix_append _ _⟩
  rw [← Text.lines_append_of_notMem hmark hrest]
  simp only [commentLines, String.toList_append, ← List.append_assoc]
  rfl

/-- The comment on a timeout is a single line exactly if the timeout is shown on one. -/
theorem length_commentLines_eq_one_iff {timeout : Literal} :
    (commentLines (some timeout)).length = 1 ↔ OnOneLine timeout.display := by
  have hmark : '\n' ∉ "    /// Timeout: ".toList := by
    decide
  have hpoint : '\n' ∉ ".".toList := by
    decide
  rw [commentLines, Text.length_lines_eq_one_iff, String.toList_append, String.toList_append,
    List.mem_append, List.mem_append]
  simp only [hmark, hpoint, false_or, or_false]
  rfl

/-- The lines of a method: those of the comment, and the one that declares it. -/
def block (method : TraitMethod) : List (List Char) :=
  commentLines method.timeout ++ [(signature method).toList]

theorem newline_notMem_of_mem_block {method : TraitMethod} (h : OnOneLine (signature method))
    {line : List Char} (hline : line ∈ block method) : '\n' ∉ line := by
  rcases List.mem_append.1 hline with hcomment | hdeclared
  · unfold commentLines at hcomment
    split at hcomment
    · exact Text.newline_notMem_of_mem_lines hcomment
    · cases hcomment
  · rw [List.mem_singleton.1 hdeclared]
    exact h

theorem unlines_block (method : TraitMethod) :
    Text.unlines (block method) = (methodText method).toList ++ ['\n'] := by
  obtain ⟨_ | timeout, _⟩ := method <;>
    simp [block, commentLines, methodText, methodLines, Text.unlines_append, Text.unlines_lines]

/-- Blocks with blank lines between them are the texts of the methods with a blank line between. -/
theorem unlines_blocks {methods : List TraitMethod} (h : methods ≠ []) :
    Text.unlines (List.intercalate [[]] (methods.map block)) =
      ("\n\n".intercalate (methods.map methodText)).toList ++ ['\n'] := by
  rw [String.toList_intercalate]
  induction methods with
  | nil => exact absurd rfl h
  | cons method methods ih =>
    cases methods with
    | nil => simp [unlines_block]
    | cons next methods =>
      have hrest := ih (List.cons_ne_nil _ _)
      simp only [List.map_cons, List.intercalate_cons_cons, Text.unlines_append] at hrest ⊢
      rw [hrest, unlines_block]
      simp [Text.unlines]

/-- The comment of a trait, its opening line, the blocks of its methods and its closing line. -/
def lines (trait : Trait) : List (List Char) :=
  ("/// Methods of plugin \x60" ++ trait.plugin ++ "\x60.").toList ::
    ("pub trait " ++ trait.name ++ " \x7b").toList ::
      (List.intercalate [[]] (trait.methods.map block) ++ ["\x7d".toList])

theorem toList_text (trait : Trait) : trait.text.toList = Text.unlines trait.lines := by
  obtain ⟨body, hbody⟩ : ∃ body, (if trait.methods = [] then ""
      else "\n\n".intercalate (trait.methods.map methodText) ++ "\n") = body := ⟨_, rfl⟩
  have hblocks : Text.unlines (List.intercalate [[]] (trait.methods.map block)) = body.toList := by
    rw [← hbody]
    split_ifs with hnil
    · rw [hnil]
      rfl
    · rw [unlines_blocks hnil, String.toList_append]
      rfl
  have hgap : "\x60.\npub trait ".toList = "\x60.".toList ++ '\n' :: "pub trait ".toList := by
    decide
  have hopening : " \x7b\n".toList = " \x7b".toList ++ ['\n'] := by
    decide
  have hclosing : "\x7d\n".toList = "\x7d".toList ++ ['\n'] := by
    decide
  unfold text lines
  rw [hbody]
  simp only [String.toList_append, hgap, hopening, hclosing, Text.unlines_cons, Text.unlines_nil,
    Text.unlines_append, hblocks, List.append_assoc, List.cons_append, List.nil_append]

/-- If no name in a trait holds a line feed, these are the lines of its text. -/
theorem lines_text {trait : Trait} (hplugin : OnOneLine trait.plugin) (hname : OnOneLine trait.name)
    (hmethods : ∀ method ∈ trait.methods, OnOneLine (signature method)) :
    Text.lines trait.text.toList = trait.lines ++ [[]] := by
  have hopening : OnOneLine ("/// Methods of plugin \x60" ++ trait.plugin ++ "\x60.") :=
    .append (.append (by decide) hplugin) (by decide)
  have hheader : OnOneLine ("pub trait " ++ trait.name ++ " \x7b") :=
    .append (.append (by decide) hname) (by decide)
  have hblocks : ∀ line ∈ List.intercalate [[]] (trait.methods.map block), '\n' ∉ line := by
    intro line hmem
    rcases Text.mem_of_mem_intercalate hmem with hblank | ⟨_, hblock, hmem⟩
    · rw [List.mem_singleton.1 hblank]
      exact List.not_mem_nil
    · obtain ⟨method, hmethod, rfl⟩ := List.mem_map.1 hblock
      exact newline_notMem_of_mem_block (hmethods method hmethod) hmem
  have hlines : ∀ line ∈ trait.lines, '\n' ∉ line := by
    rw [lines, List.forall_mem_cons, List.forall_mem_cons, List.forall_mem_append,
      List.forall_mem_singleton]
    exact ⟨hopening, hheader, hblocks, by decide⟩
  rw [toList_text, ← List.append_nil (Text.unlines _), Text.lines_unlines_append hlines]
  rfl

end Trait

end SchemaLang.Code
