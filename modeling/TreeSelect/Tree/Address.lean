import TreeSelect.Tree.Basic

/-!
# Addresses of nodes

A node of a tree is given by its address, the way to it from the root: to which child, and at last
perhaps to which attribute.  The node of an address is the address itself, never what stands there,
since equal trees occur at several addresses.  Attributes are nodes without anything below them.

A node keeps what is below it, but the link to the node above does not keep that one: a node whose
root is given up is then the root of what is left of its tree.  Here a tree is held as a whole while
its nodes are used, as a document and each of its elements hold theirs, so that every address leads
down from the root and `parent?` gives nothing for the root alone.
-/

namespace TreeSelect

/-- One step of the way to a node. -/
inductive Edge
  | attribute (index : Nat)
  | child (index : Nat)
  deriving DecidableEq, Repr

/-- The way from the root of a tree to a node. -/
abbrev Address := List Edge

/-- The kinds of nodes. -/
inductive Kind
  | document
  | element
  | attribute
  | text
  | comment
  deriving DecidableEq, Repr

/-- The kind of a node with this label. -/
def Label.kind : Label → Kind
  | .document => .document
  | .element _ => .element
  | .text _ => .text
  | .comment _ => .comment

/-- What stands at an address. -/
inductive Content
  | subtree (tree : Tree)
  | attribute (name value : Text)

namespace Content

/-- The kind of a node. -/
def kind : Content → Kind
  | .subtree tree => tree.label.kind
  | .attribute .. => .attribute

/-- The name of an element or an attribute. -/
def name? : Content → Option Text
  | .subtree (.node (.element name) _ _) => some name
  | .subtree _ => none
  | .attribute name _ => some name

/-- The string value of a node. -/
def stringValue : Content → Text
  | .subtree tree => tree.stringValue
  | .attribute _ value => value

end Content

namespace Tree

/-! ## Nodes by address -/

/-- What stands at an address, if it leads to a node. -/
def at? (tree : Tree) : Address → Option Content
  | [] => some (.subtree tree)
  | [.attribute index] =>
    tree.attributes.entries[index]?.map fun entry => .attribute entry.1 entry.2
  | .attribute _ :: _ :: _ => none
  | .child index :: rest => tree.children[index]?.bind fun child => child.at? rest

/-- The tree at an address, unless an attribute or nothing is there. -/
def subtree? (tree : Tree) (address : Address) : Option Tree :=
  match tree.at? address with
  | some (.subtree tree) => some tree
  | _ => none

/-- Whether an address leads to a node. -/
def has (tree : Tree) (address : Address) : Bool := (tree.at? address).isSome

/-- The kind of the node at an address. -/
def kind? (tree : Tree) (address : Address) : Option Kind := (tree.at? address).map Content.kind

/-- The name of the element or attribute at an address. -/
def name? (tree : Tree) (address : Address) : Option Text := (tree.at? address).bind Content.name?

/-- The string value of the node at an address. -/
def valueAt (tree : Tree) (address : Address) : Text :=
  ((tree.at? address).map Content.stringValue).getD []

/-! ## Neighbours -/

/-- The children of a node. -/
def childrenOf (tree : Tree) (address : Address) : List Address :=
  match tree.subtree? address with
  | some subtree => (List.range subtree.children.length).map fun i => address ++ [.child i]
  | none => []

/-- The attributes of a node. -/
def attributesOf (tree : Tree) (address : Address) : List Address :=
  match tree.subtree? address with
  | some subtree => (List.range subtree.attributes.size).map fun i => address ++ [.attribute i]
  | none => []

/-- The value of a node's attribute. -/
def attribute? (tree : Tree) (address : Address) (name : Text) : Option Text :=
  (tree.subtree? address).bind fun subtree => subtree.attributes.get? name

end Tree

namespace Address

/-- The node above a node; the root has none. -/
def parent? (address : Address) : Option Address :=
  if address.isEmpty then none else some address.dropLast

/-- The nodes above a node, the nearest first. -/
def ancestors (address : Address) : List Address :=
  (List.range address.length).reverse.map address.take

theorem length_lt_of_parent? {address above : Address} (h : address.parent? = some above) :
    above.length < address.length := by
  unfold parent? at h
  split at h
  · cases h
  · cases h
    rename_i hne
    have hpos := List.length_pos_iff.2 (mt List.isEmpty_iff.2 hne)
    rw [List.length_dropLast]
    omega

/-- The node without one above it to which the way up from a node leads. -/
def root (address : Address) : Address :=
  match h : address.parent? with
  | none => address
  | some above =>
    have : above.length < address.length := length_lt_of_parent? h
    root above
termination_by address.length

end Address
end TreeSelect
