import TreeSelect.Tree.Order

/-!
# Comparing nodes by their ancestors

Nodes only know their parent, their attributes and their children, so two of them are compared by
their lines, the nodes from the root down to each.  Where one line ends inside the other, the node
of the shorter line comes first; where the lines part, the positions among the attributes and
children of the last common node decide.  Lines that do not even share the root have no order.

Nodes are sorted by this comparison, and `Address.sortByAncestors` is that sort.  On the nodes of a
tree it is `Address.documentOrder`.
-/

namespace TreeSelect.Place

/-- The nodes from the root down to a node, which is the last. -/
def line (a : Place) : List Place :=
  (a.address.ancestors.reverse ++ [a.address]).map fun address => ⟨a.tree, address⟩

/-- The attributes of a node and then its children. -/
def offspring (trees : Nat → Tree) (a : Place) : List Place :=
  ((trees a.tree).attributesOf a.address ++ (trees a.tree).childrenOf a.address).map fun address =>
    ⟨a.tree, address⟩

/-- The order of two nodes by what is left of their lines below the last node that both share, if
they share one. -/
def compareLines (trees : Nat → Tree) (shared : Option Place) :
    List Place → List Place → Option Ordering
  | a :: s, b :: t =>
    if a = b then compareLines trees (some a) s t
    else do
      let siblings := offspring trees (← shared)
      return Ord.compare (← siblings.idxOf? a) (← siblings.idxOf? b)
  | s, t => some (Ord.compare s.length t.length)

/-- The order of two nodes of built trees by their ancestors. -/
def orderByAncestors? (trees : Nat → Tree) (a b : Place) : Option Ordering :=
  if a = b then some .eq else compareLines trees none a.line b.line

end TreeSelect.Place

namespace TreeSelect.Address

/-- The nodes of a list, which are from the tree with this number, sorted by their ancestors as if
nodes without an order were equal, with one of each run of equal neighbours. -/
def sortByAncestors (trees : Nat → Tree) (number : Nat) (nodes : List Address) : List Address :=
  dropRepeats (nodes.mergeSort fun a b =>
    ((Place.orderByAncestors? trees ⟨number, a⟩ ⟨number, b⟩).getD .eq).isLE)

end TreeSelect.Address
