import SchemaLang.Definition.Names
import SchemaLang.Definition.OfTree
import SchemaLang.Token.Stream
import SchemaLang.Tree.Parser

/-!
# From a source to its definitions

A source is cut into tokens, the tokens are read as items, the names of the items are checked, and
the definitions are read off them. The first error of the first stage that finds one is the error
of the source.
-/

namespace SchemaLang

/-- The tokens of a source in which no stray characters stand. -/
def tokensOf (source : String) : Except SourceError (List Token) :=
  let stream := TokenStream.ofSource source
  match stream.strays with
  | [] => .ok stream.tokens
  | run :: _ => .error ⟨.stray run.text, run.position⟩

/-- The items of a source, whose names may still clash. -/
def itemsOf (source : String) : Except SourceError (List ItemNode) := do
  parseItems (← tokensOf source)

/-- The items of a source with distinct names. -/
def verifiedItemsOf (source : String) : Except SourceError (List ItemNode) := do
  let nodes ← itemsOf source
  verifyNames nodes
  return nodes

/-- The definitions of a source, in source order. -/
def compile (source : String) : Except SourceError (List Definition) := do
  return (← verifiedItemsOf source).map Definition.ofNode

end SchemaLang
