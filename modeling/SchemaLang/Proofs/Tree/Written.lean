import Mathlib.Data.List.Forall2
import SchemaLang.Proofs.Tree.Phrase

/-!
# Writing syntax trees

A syntax tree is written back as a list of pieces: the tokens that it keeps, and in between the
kinds of those that it leaves out. Only the order of the parameters and the results of a method is
not in the tree, so that a tree with methods has several written forms.

`forall₂_pieces` and its companions say that the tokens of a phrase are a written form of the tree
that it describes, token by token.
-/

namespace SchemaLang

/-- What a tree says of a token that it is written with. -/
inductive Piece where
  | kept (token : Token)
  | mark (kind : TokenKind)

/-- A token is the one that is kept, or is of the kind that is left out. -/
inductive Piece.Matches : Piece → Token → Prop
  | kept (token : Token) : Matches (.kept token) token
  | mark {kind : TokenKind} (token : Token) (h : token.kind = kind) : Matches (.mark kind) token

open Piece

/-! ## Written forms -/

/-- A key, an equals sign and a value. -/
def OptionNode.pieces (node : OptionNode) : List Piece :=
  [kept node.key, mark .equals, kept node.value]

/-- Options with commas between them. -/
def optionPieces : List OptionNode → List Piece
  | [] => []
  | first :: more => first.pieces ++ more.flatMap fun node ↦ mark .comma :: node.pieces

/-- Options between parentheses. -/
def optionsPieces (nodes : List OptionNode) : List Piece :=
  [mark .leftParen] ++ optionPieces nodes ++ [mark .rightParen]

/-- Brackets, with the number of items if there is one. -/
def ArrayNode.pieces (node : ArrayNode) : List Piece :=
  [mark .leftBracket] ++ (node.size.map fun size ↦ [kept size]).getD [] ++ [mark .rightBracket]

/-- A name, a question mark, a type, options, brackets and a default value. -/
def FieldNode.pieces (node : FieldNode) : List Piece :=
  [kept node.name] ++ (node.optional.map fun sign ↦ [kept sign]).getD [] ++ [kept node.type] ++
    (node.options.map optionsPieces).getD [] ++ (node.array.map ArrayNode.pieces).getD [] ++
    (node.default.map fun value ↦ [mark .equals, kept value]).getD []

/-- Fields between braces. -/
def blockPieces (nodes : List FieldNode) : List Piece :=
  [mark .leftBrace] ++ nodes.flatMap FieldNode.pieces ++ [mark .rightBrace]

/-- A block of fields, or one type. -/
def ParamsNode.pieces : ParamsNode → List Piece
  | block nodes => blockPieces nodes
  | named type => [kept type]

/-- Which of its parameters and its results a method gives first. -/
inductive SignatureOrder where
  | paramsFirst
  | returnsFirst

/-- Parameters and results in an order. -/
def MethodNode.signaturePieces (node : MethodNode) : SignatureOrder → List Piece
  | .paramsFirst => node.params.pieces ++ ([mark .returns] ++ node.returns.pieces)
  | .returnsFirst => [mark .returns] ++ node.returns.pieces ++ node.params.pieces

/-- A method with its parameters and its results in an order. -/
def MethodNode.pieces (node : MethodNode) (order : SignatureOrder) : List Piece :=
  [mark .method] ++ [kept node.name] ++ (node.options.map optionsPieces).getD [] ++
    node.signaturePieces order

/-- A schema. -/
def SchemaNode.pieces (node : SchemaNode) : List Piece :=
  [mark .schema] ++ [kept node.name] ++ blockPieces node.fields

/-- A plugin around its written methods. -/
def PluginNode.pieces (node : PluginNode) (methods : List (List Piece)) : List Piece :=
  [mark .plugin] ++ [kept node.first] ++ (node.more.flatMap fun name ↦ [mark .dot, kept name]) ++
    (node.asName.map fun name ↦ [mark .asWord, kept name]).getD [] ++ [mark .leftBrace] ++
    methods.flatten ++ [mark .rightBrace]

/-- A method is written in one of the two orders. -/
def MethodNode.Written (node : MethodNode) (pieces : List Piece) : Prop :=
  ∃ order, pieces = node.pieces order

/-- An item is written with each of its methods in one of the two orders. -/
inductive ItemNode.Written : ItemNode → List Piece → Prop
  | schema (node : SchemaNode) : Written (.schema node) node.pieces
  | plugin (node : PluginNode) (methods : List (List Piece))
      (h : List.Forall₂ MethodNode.Written node.methods methods) :
      Written (.plugin node) (node.pieces methods)

/-- A list of tokens is a written form of items, one after the other. -/
def WrittenAs (nodes : List ItemNode) (tokens : List Token) : Prop :=
  ∃ pieces, List.Forall₂ ItemNode.Written nodes pieces ∧
    List.Forall₂ Piece.Matches pieces.flatten tokens

/-! ## The tokens of a phrase -/

open Phrase

theorem forall₂_kept (token : Token) : List.Forall₂ Matches [kept token] [token] :=
  .cons (.kept token) .nil

theorem forall₂_mark {kind : TokenKind} (terminal : Terminal kind) :
    List.Forall₂ Matches [mark kind] (tokens terminal) :=
  .cons (.mark terminal.1 terminal.2) .nil

section Combined

variable {δ ν : Type} [Phrase δ] (node : δ → ν) (pieces : ν → List Piece)

theorem forall₂_option (phrase : Option δ)
    (h : ∀ p, List.Forall₂ Matches (pieces (node p)) (tokens p)) :
    List.Forall₂ Matches (((phrase.map node).map pieces).getD []) (tokens phrase) := by
  cases phrase with
  | none => exact .nil
  | some phrase => exact h phrase

theorem forall₂_list (phrases : List δ)
    (h : ∀ p, List.Forall₂ Matches (pieces (node p)) (tokens p)) :
    List.Forall₂ Matches ((phrases.map node).flatMap pieces) (tokens phrases) := by
  induction phrases with
  | nil => exact .nil
  | cons phrase phrases ih => exact List.rel_append (h phrase) ih

end Combined

theorem OptionPhrase.forall₂_pieces (p : OptionPhrase) :
    List.Forall₂ Matches p.node.pieces (tokens p) :=
  List.rel_append (List.rel_append (forall₂_kept _) (forall₂_mark p.equals)) (forall₂_kept _)

theorem OptionsPhrase.forall₂_pieces (p : OptionsPhrase) :
    List.Forall₂ Matches (optionsPieces p.nodes) (tokens p) := by
  refine List.rel_append (List.rel_append (forall₂_mark p.opening) ?_) (forall₂_mark p.closing)
  obtain ⟨_, entries, _⟩ := p
  cases entries with
  | none => exact .nil
  | some entries =>
    refine List.rel_append entries.1.forall₂_pieces ?_
    refine forall₂_list (fun pair : Terminal .comma × OptionPhrase ↦ pair.2.node)
      (fun node ↦ mark .comma :: node.pieces) entries.2 fun pair ↦ ?_
    exact List.rel_append (forall₂_mark pair.1) pair.2.forall₂_pieces

theorem ArrayPhrase.forall₂_pieces (p : ArrayPhrase) :
    List.Forall₂ Matches p.node.pieces (tokens p) := by
  refine List.rel_append (List.rel_append (forall₂_mark p.opening) ?_) (forall₂_mark p.closing)
  exact forall₂_option _ (fun size ↦ [kept size]) p.size fun size ↦ forall₂_kept size.1

theorem FieldPhrase.forall₂_pieces (p : FieldPhrase) :
    List.Forall₂ Matches p.node.pieces (tokens p) := by
  refine List.rel_append (List.rel_append (List.rel_append (List.rel_append (List.rel_append
    (forall₂_kept _) ?_) (forall₂_kept _)) ?_) ?_) ?_
  · exact forall₂_option _ (fun sign ↦ [kept sign]) p.optional fun sign ↦ forall₂_kept sign.1
  · exact forall₂_option _ _ p.options OptionsPhrase.forall₂_pieces
  · exact forall₂_option _ _ p.array ArrayPhrase.forall₂_pieces
  · refine forall₂_option (fun p : DefaultPhrase ↦ p.value.1)
      (fun value ↦ [mark .equals, kept value]) p.default fun default ↦ ?_
    exact List.rel_append (forall₂_mark default.equals) (forall₂_kept _)

theorem BlockPhrase.forall₂_pieces (p : BlockPhrase) :
    List.Forall₂ Matches (blockPieces p.nodes) (tokens p) :=
  List.rel_append (List.rel_append (forall₂_mark p.opening)
    (forall₂_list _ _ p.fields FieldPhrase.forall₂_pieces)) (forall₂_mark p.closing)

theorem ParamsPhrase.forall₂_pieces (p : ParamsPhrase) :
    List.Forall₂ Matches p.node.pieces (tokens p) := by
  cases p with
  | block phrase => exact phrase.forall₂_pieces
  | named type => exact forall₂_kept type.1

/-- The order in which a phrase gives parameters and results. -/
def SignaturePhrase.order : SignaturePhrase → SignatureOrder
  | paramsFirst .. => .paramsFirst
  | returnsFirst .. => .returnsFirst

theorem MethodPhrase.forall₂_pieces (p : MethodPhrase) :
    List.Forall₂ Matches (p.node.pieces p.signature.order) (tokens p) := by
  refine List.rel_append (List.rel_append (List.rel_append (forall₂_mark p.word) (forall₂_kept _))
    (forall₂_option _ _ p.options OptionsPhrase.forall₂_pieces)) ?_
  obtain ⟨_, _, _, signature⟩ := p
  cases signature with
  | paramsFirst parameters returns =>
    exact List.rel_append parameters.forall₂_pieces
      (List.rel_append (forall₂_mark returns.word) returns.results.forall₂_pieces)
  | returnsFirst returns parameters =>
    exact List.rel_append
      (List.rel_append (forall₂_mark returns.word) returns.results.forall₂_pieces)
      parameters.forall₂_pieces

theorem SchemaPhrase.forall₂_pieces (p : SchemaPhrase) :
    List.Forall₂ Matches p.node.pieces (tokens p) :=
  List.rel_append (List.rel_append (forall₂_mark p.word) (forall₂_kept _)) p.block.forall₂_pieces

/-- The written methods of a plugin, each in the order of its phrase. -/
theorem forall₂_methods (methods : List MethodPhrase) :
    ∃ pieces, List.Forall₂ MethodNode.Written (methods.map MethodPhrase.node) pieces ∧
      List.Forall₂ Matches pieces.flatten (tokens methods) := by
  induction methods with
  | nil => exact ⟨[], .nil, .nil⟩
  | cons method methods ih =>
    obtain ⟨pieces, hwritten, hmatches⟩ := ih
    exact ⟨_ :: pieces, .cons ⟨method.signature.order, rfl⟩ hwritten,
      List.rel_append method.forall₂_pieces hmatches⟩

theorem ItemPhrase.exists_pieces (p : ItemPhrase) :
    ∃ pieces, p.node.Written pieces ∧ List.Forall₂ Matches pieces (tokens p) := by
  cases p with
  | schema p => exact ⟨_, .schema p.node, p.forall₂_pieces⟩
  | plugin p =>
    obtain ⟨methods, hwritten, hmatches⟩ := forall₂_methods p.methods
    refine ⟨_, .plugin p.node methods hwritten, ?_⟩
    refine List.rel_append (List.rel_append (List.rel_append (List.rel_append (List.rel_append
      (List.rel_append (forall₂_mark p.word) (forall₂_kept _)) ?_) ?_) (forall₂_mark p.opening))
      hmatches) (forall₂_mark p.closing)
    · refine forall₂_list (fun pair : Terminal .dot × Terminal .identifier ↦ pair.2.1)
        (fun name ↦ [mark .dot, kept name]) p.more fun pair ↦ ?_
      exact List.rel_append (forall₂_mark pair.1) (forall₂_kept _)
    · refine forall₂_option (fun pair : Terminal .asWord × Terminal .identifier ↦ pair.2.1)
        (fun name ↦ [mark .asWord, kept name]) p.asName fun pair ↦ ?_
      exact List.rel_append (forall₂_mark pair.1) (forall₂_kept _)

/-- The tokens of a unit are a written form of its trees. -/
theorem UnitPhrase.writtenAs (unit : UnitPhrase) : WrittenAs unit.nodes (tokens unit) := by
  induction unit with
  | nil => exact ⟨[], .nil, .nil⟩
  | cons item unit ih =>
    obtain ⟨pieces, hwritten, hmatches⟩ := item.exists_pieces
    obtain ⟨more, hmore, hmatchesMore⟩ := ih
    exact ⟨pieces :: more, .cons hwritten hmore, List.rel_append hmatches hmatchesMore⟩

end SchemaLang
