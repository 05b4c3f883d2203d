import SchemaLang.Source.Error
import SchemaLang.Tree.Basic

/-!
# Names of definitions

Schemas and plugins share one space of names. A name that an earlier item of a source has is
refused at the item that takes it again.
-/

namespace SchemaLang

/-- The first item whose name is among the given names or is that of an earlier item. -/
def firstRepeated? (taken : List String) : List ItemNode → Option ItemNode
  | [] => none
  | node :: rest =>
    if taken.contains node.name then some node else firstRepeated? (node.name :: taken) rest

/-- Accepts items whose names are distinct. -/
def verifyNames (nodes : List ItemNode) : Except SourceError Unit :=
  match firstRepeated? [] nodes with
  | some node => .error ⟨.definedTwice node.name, node.nameToken.position⟩
  | none => .ok ()

end SchemaLang
