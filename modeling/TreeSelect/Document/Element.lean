import TreeSelect.Document.ClassList
import TreeSelect.Document.InlineStyle
import TreeSelect.Tree.Address

/-!
# Elements

What can be asked of an element of a tree.
-/

namespace TreeSelect.Element

variable (tree : Tree) (element : Address)

/-- The name of an element. -/
def tag : Text := (tree.name? element).getD []

/-- The attributes of an element. -/
def attributes : List (Text × Text) :=
  ((tree.subtree? element).map fun subtree => subtree.attributes.entries).getD []

/-- The value of an attribute. -/
def attribute? (name : Text) : Option Text := tree.attribute? element name

/-- The text of an element and all that is below it. -/
def text : Text := tree.valueAt element

/-- The value of the attribute `id`. -/
def id? : Option Text := attribute? tree element "id".toList

/-- The classes of an element. -/
def classList : ClassList := ((attribute? tree element "class".toList).map ClassList.parse).getD {}

/-- The inline style of an element. -/
def style : InlineStyle := ((attribute? tree element "style".toList).map InlineStyle.parse).getD {}

/-- The element above an element. -/
def parent? : Option Address :=
  element.parent?.filter fun parent => tree.kind? parent = some .element

/-- The elements among the children. -/
def children : List Address :=
  (tree.childrenOf element).filter fun child => tree.kind? child = some .element

end TreeSelect.Element
