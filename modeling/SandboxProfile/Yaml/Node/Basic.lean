import SandboxProfile.Yaml.Tag

/-!
# Nodes

A document is a tree of nodes: scalars, sequences of nodes, and mappings from nodes to
nodes. An alias is replaced by the node that it refers to. It may refer to a node that it
stands in, and then only the place where that node would start again is kept.

## Main definitions

* `Yaml.Node` is the type of nodes.
-/

namespace SandboxProfile

namespace Yaml

/-- A node of a document. -/
inductive Node where
  | scalar (tag : Tag) (text : Text)
  | sequence (tag : Tag) (elements : List Node)
  /-- A mapping, as its keys and values in the order of the document. -/
  | mapping (tag : Tag) (entries : List (Node × Node))
  /-- A sequence or a mapping inside itself. -/
  | again (isMapping : Bool)
  deriving Repr

namespace Node

/-- The node where nothing is written. -/
def empty : Node :=
  .scalar .null []

/-- The tag of a node. -/
def tag : Node → Tag
  | .scalar t _ => t
  | .sequence t _ => t
  | .mapping t _ => t
  | .again isMapping => if isMapping then .map else .seq

end Node

end Yaml

end SandboxProfile
