import TreeSelect.OrderedMap
import TreeSelect.Text.Basic

/-!
# Document trees

A tree is a label, attributes and children.  Trees are put together from the leaves up: `document`,
`element`, `text` and `comment` make a tree without attributes and children, and `withAttribute`,
`withChild` and `withText` add them.
-/

namespace TreeSelect

/-- What a node of a tree is. -/
inductive Label
  | document
  | element (name : Text)
  | text (value : Text)
  | comment (value : Text)
  deriving DecidableEq, Repr

/-- A tree with attributes at its nodes. -/
inductive Tree
  | node (label : Label) (attributes : OrderedMap Text Text) (children : List Tree)

namespace Tree

instance : Inhabited Tree := ⟨.node .document .empty []⟩

/-- The label of the root. -/
def label : Tree → Label
  | .node label _ _ => label

/-- The attributes of the root. -/
def attributes : Tree → OrderedMap Text Text
  | .node _ attributes _ => attributes

/-- The trees below the root. -/
def children : Tree → List Tree
  | .node _ _ children => children

/-! ## Putting trees together -/

/-- A document without content. -/
def document : Tree := .node .document .empty []

/-- An element without attributes and content. -/
def element (name : Text) : Tree := .node (.element name) .empty []

/-- A text node. -/
def text (value : Text) : Tree := .node (.text value) .empty []

/-- A comment. -/
def comment (value : Text) : Tree := .node (.comment value) .empty []

/-- The tree with an attribute; setting it again replaces the value. -/
def withAttribute (tree : Tree) (name value : Text) : Tree :=
  .node tree.label (tree.attributes.insert name value) tree.children

/-- The tree with one more child. -/
def withChild (tree child : Tree) : Tree :=
  .node tree.label tree.attributes (tree.children ++ [child])

/-- The tree with more children. -/
def withChildren (tree : Tree) (children : List Tree) : Tree :=
  .node tree.label tree.attributes (tree.children ++ children)

/-- The tree with one more text node. -/
def withText (tree : Tree) (value : Text) : Tree := tree.withChild (.text value)

/-! ## Text -/

mutual

/-- The text that a tree adds to the text of an element around it: comments add none, and nothing
below text is looked at. -/
def gatheredText : Tree → Text
  | .node label _ children =>
    match label with
    | .text value => value
    | .comment _ => []
    | .document => gatheredTexts children
    | .element _ => gatheredTexts children

/-- The text that neighbouring trees add. -/
def gatheredTexts : List Tree → Text
  | [] => []
  | tree :: trees => tree.gatheredText ++ gatheredTexts trees

end

/-- The string value of a tree: its own text, or the text below it. -/
def stringValue : Tree → Text
  | .node (.comment value) _ _ => value
  | tree => tree.gatheredText

end Tree
end TreeSelect
