/-! # Nodes of a document

The tree that a document stands for. An alias refers to the node of an anchor by number; a document
keeps the numbered nodes beside its root. -/

namespace ChainMigration.Yaml

/-- How a scalar is written. -/
inductive ScalarStyle
  | plain
  | singleQuoted
  | doubleQuoted
  | literal
  | folded
deriving DecidableEq

/-- A node of a document. -/
inductive Node
  | scalar (style : ScalarStyle) (tag : Option String) (text : String)
  | sequence (items : List Node)
  | mapping (entries : List (Node × Node))
  | alias (anchor : Nat)

namespace Node

/-- A scalar that is written as it is. -/
def plain (text : String) : Node := scalar .plain none text

/-- The node that stands where nothing is written. -/
def empty : Node := plain ""

end Node

/-- A document: its root and the nodes that aliases refer to, latest first. -/
structure Document where
  root : Node
  anchored : List (Nat × Node)

/-- The node that a node stands for. -/
def Document.resolve (d : Document) : Node → Option Node
  | .alias anchor => d.anchored.lookup anchor
  | node => some node

end ChainMigration.Yaml
