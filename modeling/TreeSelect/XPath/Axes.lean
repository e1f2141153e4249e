import TreeSelect.Tree.Order
import TreeSelect.XPath.Expr

/-!
# Nodes along an axis

An axis lists its nodes as they are met when going away from the node: forward axes in document
order, the reverse ones against it.  Attributes have no siblings, and they are below no node.
-/

namespace TreeSelect.XPath

/-- The children of the node above a child, and the child's place among them. -/
def siblings (tree : Tree) (node : Address) : List Address × Nat :=
  match node.getLast? with
  | some (.child index) => (tree.childrenOf node.dropLast, index)
  | _ => ([], 0)

/-- The nodes along an axis. -/
def Axis.nodes (tree : Tree) (node : Address) : Axis → List Address
  | .child => tree.childrenOf node
  | .descendant => tree.descendantsOf node
  | .descendantOrSelf => node :: tree.descendantsOf node
  | .self => [node]
  | .parent => node.parent?.toList
  | .attribute => tree.attributesOf node
  | .ancestor => node.ancestors
  | .ancestorOrSelf => node :: node.ancestors
  | .followingSibling =>
    let (nodes, index) := siblings tree node
    nodes.drop (index + 1)
  | .precedingSibling =>
    let (nodes, index) := siblings tree node
    (nodes.take index).reverse

/-- The kind of node that an axis is about. -/
def Axis.principalKind : Axis → Kind
  | .attribute => .attribute
  | _ => .element

/-- Whether a node passes a test on an axis. -/
def NodeTest.holds (tree : Tree) (axis : Axis) (node : Address) : NodeTest → Bool
  | .node => true
  | .text => tree.kind? node = some .text
  | .comment => tree.kind? node = some .comment
  | .any => tree.kind? node = some axis.principalKind
  | .name expected =>
    tree.kind? node = some axis.principalKind && tree.name? node = some expected

/-- The nodes along an axis that pass a test. -/
def candidates (tree : Tree) (axis : Axis) (test : NodeTest) (node : Address) : List Address :=
  (axis.nodes tree node).filter fun candidate => test.holds tree axis candidate

end TreeSelect.XPath
