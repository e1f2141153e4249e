import TreeSelect.Tree.Address

/-!
# Document order

In document order a node comes before everything below it, its attributes come before its children,
and attributes and children keep their order.  `Address.compare` compares two nodes by their ways
from the root, and `Tree.nodes` lists all nodes of a tree one after another; both describe the same
order.

Nodes of two trees have no order, even if the trees are equal: a `Place` says which tree it is in.
-/

namespace TreeSelect

/-- Attributes come before children, and each kind is in the order of its numbers. -/
def Edge.compare : Edge → Edge → Ordering
  | .attribute i, .attribute j => Ord.compare i j
  | .attribute _, .child _ => .lt
  | .child _, .attribute _ => .gt
  | .child i, .child j => Ord.compare i j

namespace Address

/-- The order of two nodes of one tree. -/
def compare : Address → Address → Ordering
  | [], [] => .eq
  | [], _ :: _ => .lt
  | _ :: _, [] => .gt
  | a :: s, b :: t => (a.compare b).then (compare s t)

/-- Whether a node does not come after another. -/
def le (s t : Address) : Bool := (compare s t).isLE

/-- A list with one of each run of equal neighbours. -/
def dropRepeats : List Address → List Address
  | [] => []
  | address :: rest =>
    if rest.head? = some address then dropRepeats rest else address :: dropRepeats rest

/-- The nodes of a list in document order, each once. -/
def documentOrder (nodes : List Address) : List Address := dropRepeats (nodes.mergeSort le)

end Address

namespace Tree

/-! ## Listings -/

mutual

/-- The addresses of the nodes of a tree in document order. -/
def nodes : Tree → List Address
  | .node _ attributes children =>
    [] :: (List.range attributes.size).map (fun i => [.attribute i]) ++ nodesFrom 0 children

/-- The addresses of the nodes of neighbouring children, the first of them with number `index`. -/
def nodesFrom (index : Nat) : List Tree → List Address
  | [] => []
  | tree :: trees => tree.nodes.map (.child index :: ·) ++ nodesFrom (index + 1) trees

end

/-- The place of a node in the listing of its tree. -/
def number? (tree : Tree) (address : Address) : Option Nat := tree.nodes.idxOf? address

mutual

/-- The addresses of the nodes below the root, attributes left out, in document order. -/
def descendants : Tree → List Address
  | .node _ _ children => descendantsFrom 0 children

/-- The addresses of neighbouring children and of what is below them. -/
def descendantsFrom (index : Nat) : List Tree → List Address
  | [] => []
  | tree :: trees =>
    [.child index] :: tree.descendants.map (.child index :: ·) ++ descendantsFrom (index + 1) trees

end

/-- The nodes below a node, attributes left out, in document order. -/
def descendantsOf (tree : Tree) (address : Address) : List Address :=
  match tree.subtree? address with
  | some subtree => subtree.descendants.map (address ++ ·)
  | none => []

end Tree

/-! ## Several trees -/

/-- A node of one of several trees, which are told apart by a number. -/
structure Place where
  tree : Nat
  address : Address
  deriving DecidableEq, Repr

/-- The order of two nodes; nodes of different trees have none. -/
def Place.compare? (a b : Place) : Option Ordering :=
  if a.tree = b.tree then some (a.address.compare b.address) else none

end TreeSelect
