import TreeSelect.Proofs.Tree.Elements
import TreeSelect.Proofs.Tree.Numbering
import TreeSelect.XPath.Axes

/-!
# What an axis lists

Each axis goes through the tree in its own way.  `Axis.Reaches` says in one place which nodes it is
about: by the parents of nodes, by their kinds and by document order.

* `Address.Above` is the chain of parents, and `above_iff` finds it in the addresses.
* `InDocumentOrder.mem_drop_iff` and `mem_take_iff`: what stands behind and before a node in a list in
  document order.
* `inDocumentOrder_descendantsOf` and `inDocumentOrder_line`: descendants, and the way to a node.
* `nodes_exact`: an axis lists the nodes that it is about, each once and in its order.
-/

namespace TreeSelect

namespace Address

/-! ## The chain of parents -/

/-- Whether a node is met on the way from another one to its parent, to the parent of that, and so
on. -/
inductive Above : Address → Address → Prop
  | parent {above node : Address} (h : node.parent? = some above) : Above above node
  | further {above between node : Address} (h : between.parent? = some above)
      (hbetween : Above between node) : Above above node

/-- The chain of parents leads to the nodes above. -/
theorem above_iff {above node : Address} : Above above node ↔ above ∈ node.ancestors := by
  constructor
  · intro h
    induction h with
    | parent h => exact mem_ancestors_of_parent? h
    | further h _ ih => exact mem_ancestors_trans (mem_ancestors_of_parent? h) ih
  · intro h
    obtain ⟨rest, hne, rfl⟩ := mem_ancestors.1 h
    clear h
    induction rest generalizing above with
    | nil => exact absurd rfl hne
    | cons edge rest ih =>
      have hedge : (above ++ [edge]).parent? = some above := parent?_eq_some_iff.2 ⟨edge, rfl⟩
      by_cases hrest : rest = []
      · subst hrest
        exact .parent hedge
      · have hlater : Above (above ++ [edge]) (above ++ [edge] ++ rest) := ih hrest
        rw [List.append_assoc, List.singleton_append] at hlater
        exact .further hedge hlater

/-! ## Positions in a list in document order -/

/-- A node of a list in document order parts the list: what stands before it comes before it, and
what stands behind it comes after it. -/
theorem InDocumentOrder.parts {nodes : List Address} (h : InDocumentOrder nodes) {index : Nat}
    {node : Address} (hnode : nodes[index]? = some node) :
    nodes = nodes.take index ++ node :: nodes.drop (index + 1) ∧
      (∀ other ∈ nodes.take index, compare other node = .lt) ∧
        ∀ other ∈ nodes.drop (index + 1), compare node other = .lt := by
  obtain ⟨hlt, rfl⟩ := List.getElem?_eq_some_iff.1 hnode
  have hsplit : nodes = nodes.take index ++ nodes[index] :: nodes.drop (index + 1) := by
    rw [List.getElem_cons_drop, List.take_append_drop]
  have horder := h
  rw [hsplit, InDocumentOrder, List.pairwise_append, List.pairwise_cons] at horder
  obtain ⟨-, ⟨hbehind, -⟩, hbefore⟩ := horder
  exact ⟨hsplit, fun other hother => hbefore other hother _ List.mem_cons_self, hbehind⟩

theorem not_compare_self (node : Address) : compare node node ≠ .lt := by
  rw [compare_self]
  decide

/-- Behind a node stand the nodes that come after it. -/
theorem InDocumentOrder.mem_drop_iff {nodes : List Address} (h : InDocumentOrder nodes) {index : Nat}
    {node other : Address} (hnode : nodes[index]? = some node) :
    other ∈ nodes.drop (index + 1) ↔ other ∈ nodes ∧ compare node other = .lt := by
  obtain ⟨hsplit, hbefore, hbehind⟩ := h.parts hnode
  constructor
  · intro hother
    exact ⟨List.mem_of_mem_drop hother, hbehind other hother⟩
  · rintro ⟨hother, hless⟩
    rw [hsplit, List.mem_append, List.mem_cons] at hother
    rcases hother with hother | rfl | hother
    · exact absurd hless (Std.OrientedCmp.not_lt_of_lt (hbefore other hother))
    · exact absurd hless (not_compare_self _)
    · exact hother

/-- Before a node stand the nodes that come before it. -/
theorem InDocumentOrder.mem_take_iff {nodes : List Address} (h : InDocumentOrder nodes) {index : Nat}
    {node other : Address} (hnode : nodes[index]? = some node) :
    other ∈ nodes.take index ↔ other ∈ nodes ∧ compare other node = .lt := by
  obtain ⟨hsplit, hbefore, hbehind⟩ := h.parts hnode
  constructor
  · intro hother
    exact ⟨List.mem_of_mem_take hother, hbefore other hother⟩
  · rintro ⟨hother, hless⟩
    rw [hsplit, List.mem_append, List.mem_cons] at hother
    rcases hother with hother | rfl | hother
    · exact hother
    · exact absurd hless (not_compare_self _)
    · exact absurd hless (Std.OrientedCmp.not_lt_of_lt (hbehind other hother))

/-- From the root down to a node, the nodes on the way are in document order. -/
theorem inDocumentOrder_line (node : Address) :
    InDocumentOrder (node.ancestors.reverse ++ [node]) := by
  have hline : node.ancestors.reverse ++ [node] = (List.range (node.length + 1)).map node.take := by
    rw [ancestors, ← List.map_reverse, List.reverse_reverse, List.range_succ, List.map_append,
      List.map_singleton, List.take_length]
  rw [hline, InDocumentOrder, List.pairwise_map]
  refine List.Pairwise.imp_of_mem ?_ List.pairwise_lt_range
  intro i j hi hj hlt
  rw [List.mem_range] at hi hj
  have hshorter : (node.take j).take i = node.take i := by
    rw [List.take_take, Nat.min_eq_left (by omega)]
  rw [← List.take_append_drop i (node.take j), hshorter]
  apply compare_append
  intro hnil
  have hlength := congrArg List.length hnil
  simp at hlength
  omega

end Address

namespace Tree

open Address

/-! ## Descendants, children and attributes -/

mutual

/-- The root and its descendants are listed as among all nodes. -/
theorem descendants_sublist_nodes (tree : Tree) : ([] :: tree.descendants).Sublist tree.nodes := by
  match tree with
  | .node label attributes children =>
    rw [descendants, nodes, List.cons_append]
    exact ((descendantsFrom_sublist_nodesFrom 0 children).trans
      (List.sublist_append_right _ _)).cons_cons []

theorem descendantsFrom_sublist_nodesFrom (index : Nat) (trees : List Tree) :
    (descendantsFrom index trees).Sublist (nodesFrom index trees) := by
  match trees with
  | [] => exact List.Sublist.refl _
  | first :: others =>
    rw [descendantsFrom, nodesFrom]
    exact ((descendants_sublist_nodes first).map (Edge.child index :: ·)).append
      (descendantsFrom_sublist_nodesFrom (index + 1) others)

end

/-- A node and its descendants are in document order. -/
theorem inDocumentOrder_descendantsOf (tree : Tree) (node : Address) :
    InDocumentOrder (node :: tree.descendantsOf node) := by
  unfold descendantsOf
  cases tree.subtree? node with
  | none => exact List.pairwise_singleton _ _
  | some subtree =>
    have horder := ((inDocumentOrder_nodes subtree).sublist
      (descendants_sublist_nodes subtree)).map_append node
    rwa [List.map_cons, List.append_nil] at horder

/-- The descendants of a node are the nodes below it, attributes left out. -/
theorem mem_descendantsOf_iff_above {tree : Tree} {node other : Address} :
    other ∈ tree.descendantsOf node ↔ tree.has other = true ∧ Above node other ∧
      tree.kind? other ≠ some .attribute := by
  rw [mem_descendantsOf, above_iff, mem_ancestors]
  constructor
  · rintro ⟨rest, hne, hother, hthere⟩
    obtain ⟨hhas, hkind⟩ := subtree?_isSome_iff.1 hthere
    exact ⟨hhas, ⟨rest, hne, hother⟩, hkind⟩
  · rintro ⟨hhas, ⟨rest, hne, hother⟩, hkind⟩
    exact ⟨rest, hne, hother, subtree?_isSome_iff.2 ⟨hhas, hkind⟩⟩

end Tree

namespace XPath

open Address

/-! ## Siblings -/

/-- Whether two nodes are children of the same node. -/
def AreSiblings (tree : Tree) (node other : Address) : Prop :=
  (∃ above, node.parent? = some above ∧ other.parent? = some above) ∧
    tree.kind? node ≠ some .attribute ∧ tree.kind? other ≠ some .attribute

theorem AreSiblings.symm {tree : Tree} {node other : Address} (h : AreSiblings tree node other) :
    AreSiblings tree other node := by
  obtain ⟨⟨above, hnode, hother⟩, hkind, hkind'⟩ := h
  exact ⟨⟨above, hother, hnode⟩, hkind', hkind⟩

/-- The siblings that an axis goes through are all of them in document order, the node among them at
its place; attributes and the root have none. -/
theorem siblings_spec {tree : Tree} {node : Address} (h : tree.has node = true) :
    ∃ listing index, siblings tree node = (listing, index) ∧ InDocumentOrder listing ∧
      (∀ other, other ∈ listing ↔ tree.has other = true ∧ AreSiblings tree node other) ∧
        (listing = [] ∨ listing[index]? = some node) := by
  rcases List.eq_nil_or_concat node with rfl | ⟨above, edge, rfl⟩
  · refine ⟨[], 0, rfl, List.Pairwise.nil, fun other => ?_, .inl rfl⟩
    simp [AreSiblings, parent?]
  · rw [List.concat_eq_append] at h ⊢
    have hparent : Address.parent? (above ++ [edge]) = some above :=
      parent?_eq_some_iff.2 ⟨edge, rfl⟩
    cases edge with
    | «attribute» index =>
      have hkind : tree.kind? (above ++ [.attribute index]) = some .attribute :=
        not_not.1 (mt (Tree.exists_child_iff h).1 (by simp))
      refine ⟨[], 0, by simp [siblings], List.Pairwise.nil, fun other => ?_, .inl rfl⟩
      simp [AreSiblings, hkind]
    | child index =>
      have hkind := (Tree.exists_child_iff h).2 ⟨index, rfl⟩
      refine ⟨tree.childrenOf above, index, by simp [siblings],
        (Tree.inDocumentOrder_offspring tree above).sublist (List.sublist_append_right _ _),
        fun other => ?_, .inr ?_⟩
      · rw [Tree.mem_childrenOf_iff_parent, AreSiblings, hparent]
        simp [hkind]
      · obtain ⟨subtree, hsubtree, hchild⟩ := Tree.subtree?_of_has_append (List.cons_ne_nil _ _) h
        simp [Tree.childrenOf, hsubtree, Tree.has_child.1 hchild]

/-! ## Axes -/

/-- The nodes that an axis is about, told by parents, kinds and document order. -/
def Axis.Reaches (tree : Tree) (node other : Address) : Axis → Prop
  | .child => other.parent? = some node ∧ tree.kind? other ≠ some .attribute
  | .attribute => other.parent? = some node ∧ tree.kind? other = some .attribute
  | .self => other = node
  | .parent => node.parent? = some other
  | .ancestor => Above other node
  | .ancestorOrSelf => other = node ∨ Above other node
  | .descendant => Above node other ∧ tree.kind? other ≠ some .attribute
  | .descendantOrSelf => other = node ∨ Above node other ∧ tree.kind? other ≠ some .attribute
  | .followingSibling => AreSiblings tree node other ∧ node.compare other = .lt
  | .precedingSibling => AreSiblings tree node other ∧ other.compare node = .lt

namespace Axis

variable {tree : Tree} {node : Address}

theorem mem_followingSibling (h : tree.has node = true) (other : Address) :
    other ∈ followingSibling.nodes tree node ↔
      tree.has other = true ∧ followingSibling.Reaches tree node other := by
  obtain ⟨listing, index, hsiblings, horder, hmem, hplace⟩ := siblings_spec h
  rw [nodes, hsiblings, Reaches, ← and_assoc, ← hmem]
  rcases hplace with rfl | hplace
  · simp
  · exact horder.mem_drop_iff hplace

theorem mem_precedingSibling (h : tree.has node = true) (other : Address) :
    other ∈ precedingSibling.nodes tree node ↔
      tree.has other = true ∧ precedingSibling.Reaches tree node other := by
  obtain ⟨listing, index, hsiblings, horder, hmem, hplace⟩ := siblings_spec h
  rw [nodes, hsiblings, Reaches, ← and_assoc, ← hmem, List.mem_reverse]
  rcases hplace with rfl | hplace
  · simp
  · exact horder.mem_take_iff hplace

/-- An axis lists the nodes that it is about. -/
theorem mem_nodes (h : tree.has node = true) (axis : Axis) (other : Address) :
    other ∈ axis.nodes tree node ↔ tree.has other = true ∧ axis.Reaches tree node other := by
  have habove : ∀ {above : Address}, Above above node → tree.has above = true := by
    intro above hmem
    obtain ⟨rest, -, rfl⟩ := mem_ancestors.1 (above_iff.1 hmem)
    exact Tree.has_of_has_append h
  have hself : other = node → tree.has other = true := by
    rintro rfl
    exact h
  cases axis with
  | child => exact Tree.mem_childrenOf_iff_parent
  | «attribute» => exact Tree.mem_attributesOf_iff_parent
  | descendant => exact Tree.mem_descendantsOf_iff_above
  | followingSibling => exact mem_followingSibling h other
  | precedingSibling => exact mem_precedingSibling h other
  | self =>
    rw [nodes, List.mem_singleton, Reaches]
    exact (and_iff_right_of_imp hself).symm
  | parent =>
    rw [nodes, Option.mem_toList, Reaches]
    exact (and_iff_right_of_imp fun hparent => habove (.parent hparent)).symm
  | ancestor =>
    rw [nodes, ← above_iff, Reaches]
    exact (and_iff_right_of_imp habove).symm
  | ancestorOrSelf =>
    rw [nodes, List.mem_cons, ← above_iff, Reaches]
    exact (and_iff_right_of_imp fun hcase => hcase.elim hself habove).symm
  | descendantOrSelf =>
    rw [nodes, List.mem_cons, Tree.mem_descendantsOf_iff_above, Reaches, and_or_left,
      and_iff_right_of_imp hself]

/-- Forward axes go with document order and reverse axes against it. -/
theorem inDocumentOrder_nodes (h : tree.has node = true) (axis : Axis) :
    InDocumentOrder
      (if axis.isReverse then (axis.nodes tree node).reverse else axis.nodes tree node) := by
  have hoffspring := Tree.inDocumentOrder_offspring tree node
  have hbelow := Tree.inDocumentOrder_descendantsOf tree node
  have hline := inDocumentOrder_line node
  cases axis with
  | child => exact hoffspring.sublist (List.sublist_append_right _ _)
  | «attribute» => exact hoffspring.sublist (List.sublist_append_left _ _)
  | descendant => exact hbelow.sublist (List.sublist_cons_self _ _)
  | descendantOrSelf => exact hbelow
  | self => exact List.pairwise_singleton _ _
  | parent =>
    show InDocumentOrder node.parent?.toList
    cases node.parent? with
    | none => exact List.Pairwise.nil
    | some above => exact List.pairwise_singleton _ _
  | ancestor => exact hline.sublist (List.sublist_append_left _ _)
  | ancestorOrSelf =>
    show InDocumentOrder (node :: node.ancestors).reverse
    rwa [List.reverse_cons]
  | followingSibling =>
    obtain ⟨listing, index, hsiblings, horder, -⟩ := siblings_spec h
    rw [nodes, hsiblings]
    exact horder.sublist (List.drop_sublist _ _)
  | precedingSibling =>
    obtain ⟨listing, index, hsiblings, horder, -⟩ := siblings_spec h
    rw [nodes, hsiblings]
    show InDocumentOrder (listing.take index).reverse.reverse
    rw [List.reverse_reverse]
    exact horder.sublist (List.take_sublist _ _)

/-- An axis lists the nodes of the tree that it is about, each once, and in document order or, for a
reverse axis, against it.  So descendants and ancestors are each other's reverse, attributes aside,
and so are the siblings that follow and those that precede. -/
theorem nodes_exact (h : tree.has node = true) (axis : Axis) :
    InDocumentOrder
        (if axis.isReverse then (axis.nodes tree node).reverse else axis.nodes tree node) ∧
      (axis.nodes tree node).Nodup ∧
      (∀ other, other ∈ axis.nodes tree node ↔
        tree.has other = true ∧ axis.Reaches tree node other) ∧
      ∀ other, tree.has other = true →
        (other ∈ descendant.nodes tree node ↔
          node ∈ ancestor.nodes tree other ∧ tree.kind? other ≠ some .attribute) ∧
        (other ∈ followingSibling.nodes tree node ↔ node ∈ precedingSibling.nodes tree other) := by
  have horder := inDocumentOrder_nodes h axis
  refine ⟨horder, ?_, mem_nodes h axis, fun other hother => ⟨?_, ?_⟩⟩
  · have hnodup := horder.nodup
    split at hnodup
    · exact List.nodup_reverse.1 hnodup
    · exact hnodup
  · rw [mem_nodes h, mem_nodes hother, Reaches, Reaches]
    simp [h, hother]
  · rw [mem_nodes h, mem_nodes hother, Reaches, Reaches]
    simp only [h, hother, true_and]
    exact and_congr_left fun _ => ⟨AreSiblings.symm, AreSiblings.symm⟩

/-- A text between elements, with a child of its own, is a sibling like them. -/
theorem nodes_exact_preceding :
    let tree := ((Tree.element "ul".toList).withAttribute "class".toList "a".toList).withChildren
      [Tree.element "li".toList, (Tree.text "b".toList).withChild (.element "i".toList),
        Tree.element "li".toList]
    tree.has [.child 2] = true ∧
      precedingSibling.nodes tree [.child 2] = [[.child 1], [.child 0]] ∧
      InDocumentOrder (precedingSibling.nodes tree [.child 2]).reverse ∧
      (precedingSibling.nodes tree [.child 2]).Nodup ∧
      (∀ other, other ∈ precedingSibling.nodes tree [.child 2] ↔
        tree.has other = true ∧ precedingSibling.Reaches tree [.child 2] other) ∧
      ∀ other, tree.has other = true →
        (other ∈ descendant.nodes tree [.child 2] ↔
          [.child 2] ∈ ancestor.nodes tree other ∧ tree.kind? other ≠ some .attribute) ∧
        (other ∈ followingSibling.nodes tree [.child 2] ↔
          [.child 2] ∈ precedingSibling.nodes tree other) := by
  intro tree
  have hthere : tree.has [.child 2] = true := by decide +kernel
  exact ⟨hthere, by decide +kernel, nodes_exact hthere .precedingSibling⟩

end Axis
end XPath
end TreeSelect
