/-
Module: Imprint.Node.Chain
Purpose: Member chains and the dotted names they spell. A chain follows properties that are members
  themselves, as in `x[a.b]`; its name is made of the texts of the objects along the way and of the
  identifier at its end.
Main exports: Node.chainTail?, Node.chainObjects, Node.chainName
-/
import Imprint.Node.CanonicalText

namespace Imprint.Node

/-- The identifier at the end of a chain, which must not be computed. -/
def chainTail? : Node → Option String
  | ⟨_, .member _ ⟨_, .identifier name⟩ computed⟩ => if computed then none else some name
  | ⟨_, .member _ property _⟩ => chainTail? property
  | _ => none

/-- The texts of the objects along a chain, the outermost first. -/
def chainObjects : Node → List String
  | ⟨_, .member object property _⟩ => object.canonicalText :: chainObjects property
  | _ => []

/-- The name of a chain with a given end. -/
def chainName (chain : Node) (tail : String) : String :=
  Text.join "." (chain.chainObjects ++ [tail])

end Imprint.Node
