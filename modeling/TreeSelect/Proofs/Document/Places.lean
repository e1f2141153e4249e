import Mathlib.Data.List.Perm.Subperm
import TreeSelect.Proofs.Document.History
import TreeSelect.Proofs.Document.Positions

/-!
# Places among siblings

A pseudo-class about places behind a tag counts, for each node, the child elements with that tag.
The first of them has the place one.  `find_sibling` says which places each pseudo-class asks for, as
long as no node has so many children that their number is not exact.

* `Tree.taggedChildren` is what is counted, and `Path.exists_placed_iff` says that the predicates of
  a step see the same places.
* `SiblingClass.Asks` is what a pseudo-class asks of a place.
-/

namespace TreeSelect

open TreeSelect.XPath

namespace Tree

/-- The child elements of a node with a tag, all of them for the star. -/
def taggedChildren (tree : Tree) (tag : Text) (above : Address) : List Address :=
  (tree.childrenOf above).filter fun node =>
    tree.kind? node = some .element ∧ (tag = ['*'] ∨ tree.name? node = some tag)

theorem candidates_child (tree : Tree) (tag : Text) (above : Address) :
    candidates tree .child (.ofName tag) above = tree.taggedChildren tag above := by
  refine List.filter_congr fun node _ => ?_
  rw [Bool.eq_iff_iff, Path.holds_ofName, decide_eq_true_eq]

/-- No node has more children than the tree has nodes. -/
theorem length_childrenOf_le (tree : Tree) (above : Address) :
    (tree.childrenOf above).length ≤ tree.nodes.length := by
  have hnodup : (tree.childrenOf above).Nodup :=
    ((inDocumentOrder_offspring tree above).sublist (List.sublist_append_right _ _)).nodup
  have hsubset : tree.childrenOf above ⊆ tree.nodes := by
    intro node hnode
    obtain ⟨index, -, hhas⟩ := mem_childrenOf.1 hnode
    exact (mem_nodes tree node).2 hhas
  exact (List.subperm_of_subset hnodup hsubset).length_le

end Tree

namespace Path

/-- Where no node has `limit` children, places and their number stay below it. -/
theorem Placed.lt_of_few {tree : Tree} {focus : Focus} {tag : Text} (h : Placed tree tag focus)
    {limit : Nat} (hfew : ∀ above, (tree.childrenOf above).length < limit) :
    focus.position < limit ∧ focus.size < limit := by
  obtain ⟨above, index, hindex, hposition, hsize⟩ := h
  obtain ⟨hlt, -⟩ := List.getElem?_eq_some_iff.1 hindex
  have hle : (candidates tree .child (.ofName tag) above).length ≤ (tree.childrenOf above).length :=
    List.length_filter_le _ _
  have hless := hfew above
  omega

/-- The places of a node are counted from one among the child elements with the tag. -/
theorem exists_placed_iff (tree : Tree) (tag : Text) (node : Address) (holds : Nat → Nat → Prop) :
    (∃ focus, Placed tree tag focus ∧ focus.node = node ∧ holds focus.position focus.size) ↔
      ∃ above index, node.parent? = some above ∧
        (tree.taggedChildren tag above)[index]? = some node ∧
          holds (index + 1) (tree.taggedChildren tag above).length := by
  constructor
  · rintro ⟨focus, ⟨above, hfocus⟩, rfl, hholds⟩
    have hparent := parent_of_focusIn hfocus
    obtain ⟨index, hindex, hposition, hsize⟩ := hfocus
    rw [Tree.candidates_child] at hindex hsize
    rw [hposition, hsize] at hholds
    exact ⟨above, index, hparent, hindex, hholds⟩
  · rintro ⟨above, index, -, hindex, hholds⟩
    rw [← Tree.candidates_child] at hindex hholds
    exact ⟨⟨node, index + 1, _⟩, ⟨above, index, hindex, rfl, rfl⟩, rfl, hholds⟩

end Path

/-! ## What a pseudo-class asks for -/

namespace SiblingClass

/-- Whether a pseudo-class asks for a place, counted from one, among so many. -/
def Asks : SiblingClass → Nat → Nat → Prop
  | .firstChild, place, _ => place = 1
  | .lastChild, place, count => place = count
  | .odd, place, _ => place % 2 = 1
  | .even, place, _ => place % 2 = 0
  | .nth digits, place, _ => place = Number.digitsValue digits

instance : ∀ (pseudo : SiblingClass) (place count : Nat), Decidable (pseudo.Asks place count)
  | .firstChild, place, _ => inferInstanceAs (Decidable (place = 1))
  | .lastChild, place, count => inferInstanceAs (Decidable (place = count))
  | .odd, place, _ => inferInstanceAs (Decidable (place % 2 = 1))
  | .even, place, _ => inferInstanceAs (Decidable (place % 2 = 0))
  | .nth digits, place, _ => inferInstanceAs (Decidable (place = Number.digitsValue digits))

/-- The condition of a pseudo-class keeps the places that it asks for. -/
theorem keeps_iff {tree : Tree} {focus : Focus} (pseudo : SiblingClass)
    (hposition : focus.position < Number.exactLimit) (hsize : focus.size < Number.exactLimit) :
    Path.Keeps tree pseudo.position focus ↔ pseudo.Asks focus.position focus.size := by
  cases pseudo with
  | firstChild => exact Path.keeps_first
  | lastChild => exact Path.keeps_last hsize
  | odd => exact Path.keeps_odd hposition
  | even => exact Path.keeps_even hposition
  | nth digits =>
    rw [position, Path.keeps_index hposition, Position.digitsValue_withoutLeadingZeros, Asks]

end SiblingClass

namespace Document

/-- A tag with a pseudo-class about places behind it finds, in document order, the elements whose
place the pseudo-class asks for.  The places are counted from one among the child elements with the
tag of the node above, whatever has been asked of the document before. -/
theorem find_sibling (document : Document) {tag : Text} {pseudo : SiblingClass}
    (hcache : document.cache.Coherent) (hchars : ∀ c ∈ tag, isTagChar c = true)
    (hname : Lexeme.isNameTest tag = true) (hpseudo : pseudo.isWritten = true)
    (hfew : ∀ above, (document.tree.childrenOf above).length < Number.exactLimit) :
    ∃ found, (document.find (tag ++ pseudo.text) .css).1 = .ok found ∧
      Address.InDocumentOrder found ∧
        ∀ node, node ∈ found ↔ ∃ above index, node.parent? = some above ∧
          (document.tree.taggedChildren tag above)[index]? = some node ∧
            pseudo.Asks (index + 1) (document.tree.taggedChildren tag above).length := by
  obtain ⟨found, hfound, horder, hmem⟩ := find_place document.tree document.defaultType hchars hname
    (SiblingClass.standsFor hpseudo) (SiblingClass.position_isReadable hpseudo)
  have hfresh := (forgetful_findFrom none (tag ++ pseudo.text) .css document hcache).1
  refine ⟨found, hfresh.trans hfound, horder, fun node => ?_⟩
  rw [hmem, ← Path.exists_placed_iff]
  refine exists_congr fun focus => and_congr_right fun hplaced => and_congr_right fun _ => ?_
  obtain ⟨hposition, hsize⟩ := hplaced.lt_of_few hfew
  exact pseudo.keeps_iff hposition hsize

/-- The last items of two lists, one of which is also the first of its list. -/
theorem find_sibling_last :
    let tree := (Tree.element "main".toList).withChildren [
      (Tree.element "ul".toList).withChildren [.element "li".toList, .element "li".toList,
        .element "p".toList],
      (Tree.element "ul".toList).withChildren [.element "li".toList]]
    ∃ found, (find ⟨tree, .empty, .css⟩ "li:last-child".toList .css).1 = .ok found ∧
      [.child 0, .child 1] ∈ found ∧ [.child 1, .child 0] ∈ found ∧ [.child 0, .child 0] ∉ found := by
  intro tree
  have hfew : ∀ above, (tree.childrenOf above).length < Number.exactLimit := by
    intro above
    have hnodes : tree.nodes.length = 7 := by decide +kernel
    have hle := tree.length_childrenOf_le above
    have hlimit : 7 < Number.exactLimit := by decide
    omega
  have hchars : ∀ c ∈ "li".toList, isTagChar c = true := by decide +kernel
  obtain ⟨found, hfound, -, hmem⟩ := find_sibling ⟨tree, .empty, .css⟩ Cache.coherent_empty hchars
    (by decide : Lexeme.isNameTest "li".toList = true)
    (rfl : SiblingClass.isWritten .lastChild = true) hfew
  refine ⟨found, hfound, ?_, ?_, ?_⟩
  · exact (hmem _).2 ⟨[.child 0], 1, by decide, by decide +kernel, by decide +kernel⟩
  · exact (hmem _).2 ⟨[.child 1], 0, by decide, by decide +kernel, by decide +kernel⟩
  · intro hfirst
    obtain ⟨above, index, hparent, hindex, hasks⟩ := (hmem _).1 hfirst
    obtain rfl : [.child 0] = above := Option.some.inj hparent
    have hitems : tree.taggedChildren "li".toList [.child 0] =
        [[.child 0, .child 0], [.child 0, .child 1]] := by decide +kernel
    rw [hitems] at hindex hasks
    obtain rfl : index = 1 := Nat.succ.inj hasks
    exact absurd hindex (by decide)

end Document
end TreeSelect
