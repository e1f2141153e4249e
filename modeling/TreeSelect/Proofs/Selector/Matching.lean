import TreeSelect.Proofs.XPath.Names
import TreeSelect.Selector.Segment
import TreeSelect.Tree.Address

/-!
# What a selector means

A segment is satisfied by elements, and a chain of segments matches an element that satisfies its last
segment and has the elements for the earlier segments above it.  Nothing here mentions paths or
XPath, and for a given tree and element the meaning can be computed.
-/

namespace TreeSelect

/-- Whether a segment asks for a tag, an id, classes and attributes alone, and whether the names that
it asks for are names of XPath. -/
def Segment.isPlain (segment : Segment) : Bool :=
  segment.pseudo.isNone && XPath.Lexeme.isNameTest segment.tag &&
    (segment.attributes.getD .empty).entries.all fun entry => XPath.Lexeme.isName entry.1

theorem Segment.isPlain_iff {segment : Segment} :
    segment.isPlain = true ↔
      segment.pseudo = none ∧ XPath.Lexeme.isNameTest segment.tag = true ∧
        ∀ entry ∈ (segment.attributes.getD .empty).entries, XPath.Lexeme.isName entry.1 = true := by
  rw [isPlain, Bool.and_eq_true, Bool.and_eq_true, Option.isNone_iff_eq_none, List.all_eq_true,
    and_assoc]

/-- What a segment asks of an element.  An attribute has to be there, and to have the value that the
segment gives for it, if it gives one. -/
structure Segment.Satisfied (tree : Tree) (segment : Segment) (node : Address) : Prop where
  element : tree.kind? node = some .element
  tag : segment.tag = ['*'] ∨ tree.name? node = some segment.tag
  id : ∀ value ∈ segment.id, tree.attribute? node "id".toList = some value
  attributes : ∀ entry ∈ (segment.attributes.getD .empty).entries,
    (tree.attribute? node entry.1).isSome = true ∧
      ∀ value ∈ entry.2, tree.attribute? node entry.1 = some value
  classes : ∀ name ∈ segment.classes.getD [],
    name ∈ ((tree.attribute? node "class".toList).getD []).words

instance (tree : Tree) (segment : Segment) (node : Address) :
    Decidable (segment.Satisfied tree node) :=
  decidable_of_iff
    (tree.kind? node = some .element ∧
      (segment.tag = ['*'] ∨ tree.name? node = some segment.tag) ∧
      (∀ value ∈ segment.id, tree.attribute? node "id".toList = some value) ∧
      (∀ entry ∈ (segment.attributes.getD .empty).entries,
        (tree.attribute? node entry.1).isSome = true ∧
          ∀ value ∈ entry.2, tree.attribute? node entry.1 = some value) ∧
      ∀ name ∈ segment.classes.getD [],
        name ∈ ((tree.attribute? node "class".toList).getD []).words)
    ⟨fun ⟨element, tag, id, attributes, classes⟩ => ⟨element, tag, id, attributes, classes⟩,
      fun ⟨element, tag, id, attributes, classes⟩ => ⟨element, tag, id, attributes, classes⟩⟩

/-- Whether segments, of which the last comes first, match a node: it has a parent and satisfies the
last segment, and its parent or some node above it matches the segments before. -/
def MatchesFromLast (tree : Tree) : List Segment → Address → Prop
  | [], _ => False
  | segment :: earlier, node =>
    node.parent?.isSome = true ∧ segment.Satisfied tree node ∧
      match earlier with
      | [] => True
      | previous :: _ =>
        if previous.relation = .child then
          ∃ parent ∈ node.parent?, MatchesFromLast tree earlier parent
        else ∃ above ∈ node.ancestors, MatchesFromLast tree earlier above

/-- Whether the segments of a selector, from the first to the last, match a node. -/
def Matches (tree : Tree) (segments : List Segment) (node : Address) : Prop :=
  MatchesFromLast tree segments.reverse node

/-! ## The last segment -/

/-- One segment matches the elements below the root that satisfy it. -/
theorem matches_singleton {tree : Tree} {segment : Segment} {node : Address} :
    Matches tree [segment] node ↔
      node.parent?.isSome = true ∧ segment.Satisfied tree node := by
  show node.parent?.isSome = true ∧ segment.Satisfied tree node ∧ True ↔ _
  rw [and_true]

/-- Several segments match an element that satisfies the last of them and has an element that the
others match above it: its parent behind a child sign, and else any node above it. -/
theorem matches_concat {tree : Tree} {earlier : List Segment} {previous last : Segment}
    {node : Address} :
    Matches tree (earlier ++ [previous] ++ [last]) node ↔
      node.parent?.isSome = true ∧ last.Satisfied tree node ∧
        if previous.relation = .child then
          ∃ parent ∈ node.parent?, Matches tree (earlier ++ [previous]) parent
        else ∃ above ∈ node.ancestors, Matches tree (earlier ++ [previous]) above := by
  simp only [Matches, List.reverse_append, List.reverse_singleton, List.singleton_append]
  rw [MatchesFromLast]

/-- What segments match is an element below the root. -/
theorem Matches.element {tree : Tree} {segments : List Segment} {node : Address}
    (h : Matches tree segments node) :
    node.parent?.isSome = true ∧ tree.kind? node = some .element := by
  rw [Matches, MatchesFromLast.eq_def] at h
  split at h
  · cases h
  · exact ⟨h.1, h.2.1.element⟩

/-! ## Computing matches -/

/-- Matching can be computed from the last segment back to the first. -/
def decideMatchesFromLast (tree : Tree) :
    (segments : List Segment) → (node : Address) → Decidable (MatchesFromLast tree segments node)
  | [], _ => inferInstanceAs (Decidable False)
  | [segment], node =>
    inferInstanceAs
      (Decidable (node.parent?.isSome = true ∧ segment.Satisfied tree node ∧ True))
  | segment :: previous :: earlier, node =>
    have := decideMatchesFromLast tree (previous :: earlier)
    inferInstanceAs
      (Decidable (node.parent?.isSome = true ∧ segment.Satisfied tree node ∧
        if previous.relation = .child then
          ∃ parent ∈ node.parent?, MatchesFromLast tree (previous :: earlier) parent
        else ∃ above ∈ node.ancestors, MatchesFromLast tree (previous :: earlier) above))

instance (tree : Tree) (segments : List Segment) (node : Address) :
    Decidable (Matches tree segments node) :=
  decideMatchesFromLast tree segments.reverse node

end TreeSelect
