import TreeSelect.Proofs.Tree.Attributes

/-!
# Elements and the nodes above them

Where an element stands shows in its address: its parent is the address without the last edge, and
the nodes above it are the beginnings of the address.  So `mem_childrenOf_iff_parent`,
`mem_attributesOf_iff_parent` and `exists_parent_iff` turn the listings of a tree into statements on
addresses.
-/

namespace TreeSelect

namespace Address

theorem parent?_eq_some_iff {node above : Address} :
    node.parent? = some above ↔ ∃ edge, node = above ++ [edge] := by
  rw [parent?]
  rcases List.eq_nil_or_concat node with rfl | ⟨start, last, rfl⟩
  · constructor
    · intro h
      cases h
    · intro hcase
      rcases hcase with ⟨edge, h⟩
      exact absurd h.symm (List.append_ne_nil_of_right_ne_nil above (List.cons_ne_nil edge []))
  · rw [List.concat_eq_append, if_neg (by simp), List.dropLast_concat, Option.some.injEq]
    constructor
    · intro hcase
      subst hcase
      exact ⟨last, rfl⟩
    · intro hcase
      rcases hcase with ⟨edge, h⟩
      exact (List.append_inj' h rfl).1

/-- From every node the way up leads to the one root. -/
theorem root_eq (node : Address) : node.root = [] := by
  fun_induction root node with
  | case1 node hnone =>
    unfold parent? at hnone
    simpa using hnone
  | case2 node above _ _ ih => exact ih

/-- The nodes above a node are the shorter beginnings of its address. -/
theorem mem_ancestors {node above : Address} :
    above ∈ node.ancestors ↔ ∃ rest, rest ≠ [] ∧ node = above ++ rest := by
  simp only [ancestors, List.mem_map, List.mem_reverse, List.mem_range]
  constructor
  · intro hcase
    rcases hcase with ⟨count, hlt, rfl⟩
    refine ⟨node.drop count, ?_, (List.take_append_drop count node).symm⟩
    intro hnil
    rw [List.drop_eq_nil_iff] at hnil
    omega
  · intro hcase
    rcases hcase with ⟨rest, hne, rfl⟩
    have hpos := List.length_pos_iff.2 hne
    refine ⟨above.length, ?_, List.take_left⟩
    rw [List.length_append]
    omega

/-- All nodes below the root have a parent. -/
theorem root_mem_ancestors_iff {node : Address} :
    [] ∈ node.ancestors ↔ node.parent?.isSome = true := by
  rw [mem_ancestors, Option.isSome_iff_exists]
  constructor
  · intro hcase
    rcases hcase with ⟨rest, hne, hnode⟩
    rcases List.eq_nil_or_concat rest with rfl | ⟨first, last, rfl⟩
    · exact absurd rfl hne
    · rw [hnode, List.nil_append, List.concat_eq_append]
      exact ⟨first, parent?_eq_some_iff.2 ⟨last, rfl⟩⟩
  · intro hcase
    rcases hcase with ⟨above, hparent⟩
    obtain ⟨edge, rfl⟩ := parent?_eq_some_iff.1 hparent
    exact ⟨above ++ [edge], List.append_ne_nil_of_right_ne_nil _ (List.cons_ne_nil _ _), rfl⟩

theorem mem_ancestors_of_parent? {node above : Address} (h : node.parent? = some above) :
    above ∈ node.ancestors := by
  obtain ⟨edge, rfl⟩ := parent?_eq_some_iff.1 h
  exact mem_ancestors.2 ⟨[edge], List.cons_ne_nil edge [], rfl⟩

/-- What is above a node is above all that is below it. -/
theorem mem_ancestors_trans {node between above : Address} (habove : above ∈ between.ancestors)
    (hbetween : between ∈ node.ancestors) : above ∈ node.ancestors := by
  obtain ⟨rest, hne, rfl⟩ := mem_ancestors.1 habove
  obtain ⟨more, -, rfl⟩ := mem_ancestors.1 hbetween
  exact mem_ancestors.2 ⟨rest ++ more, by simp [hne], List.append_assoc ..⟩

/-- The root is above every node that has another above it. -/
theorem root_mem_of_mem_ancestors {node above : Address} (h : above ∈ node.ancestors) :
    [] ∈ node.ancestors := by
  obtain ⟨rest, hne, rfl⟩ := mem_ancestors.1 h
  exact mem_ancestors.2 ⟨above ++ rest, by simp [hne], rfl⟩

end Address

namespace Tree

variable {tree : Tree} {node above : Address}

theorem has_of_kind? {kind : Kind} (h : tree.kind? node = some kind) : tree.has node = true := by
  obtain ⟨content, hcontent, -⟩ := Option.map_eq_some_iff.1 h
  rw [has, hcontent]
  rfl

/-- Trees stand at the nodes that are no attributes. -/
theorem subtree?_isSome_iff : (tree.subtree? node).isSome = true ↔
    tree.has node = true ∧ tree.kind? node ≠ some .attribute := by
  unfold subtree? has kind?
  cases tree.at? node with
  | none => simp
  | some content =>
    cases content with
    | subtree subtree => cases hlabel : subtree.label <;> simp [Content.kind, Label.kind, hlabel]
    | «attribute» name value => simp [Content.kind]

/-- What is no attribute is reached as a child. -/
theorem exists_child_iff {edge : Edge} (h : tree.has (above ++ [edge]) = true) :
    tree.kind? (above ++ [edge]) ≠ some .attribute ↔ ∃ index, edge = .child index := by
  cases edge with
  | child index =>
    obtain ⟨subtree, hsubtree, hchild⟩ := subtree?_of_has_append (List.cons_ne_nil _ _) h
    have hthere : (tree.subtree? (above ++ [.child index])).isSome = true := by
      rw [subtree?_append, hsubtree, Option.bind_some, subtree?_child,
        List.getElem?_eq_getElem (has_child.1 hchild), Option.bind_some, subtree?_nil]
      rfl
    exact iff_of_true (subtree?_isSome_iff.1 hthere).2 ⟨index, rfl⟩
  | «attribute» index =>
    obtain ⟨content, hcontent⟩ := Option.isSome_iff_exists.1 h
    obtain ⟨_, name, value, -, -, rfl⟩ := at?_attribute_eq_some hcontent
    have hkind : tree.kind? (above ++ [.attribute index]) = some .attribute := by
      rw [kind?, hcontent]
      rfl
    simp [hkind]

/-- The children of a node are the nodes that have it for a parent, attributes left out. -/
theorem mem_childrenOf_iff_parent :
    node ∈ tree.childrenOf above ↔ tree.has node = true ∧ node.parent? = some above ∧
      tree.kind? node ≠ some .attribute := by
  rw [mem_childrenOf]
  constructor
  · rintro ⟨index, rfl, hhas⟩
    exact ⟨hhas, Address.parent?_eq_some_iff.2 ⟨_, rfl⟩, (exists_child_iff hhas).2 ⟨index, rfl⟩⟩
  · rintro ⟨hhas, hparent, hkind⟩
    obtain ⟨edge, rfl⟩ := Address.parent?_eq_some_iff.1 hparent
    obtain ⟨index, rfl⟩ := (exists_child_iff hhas).1 hkind
    exact ⟨index, rfl, hhas⟩

/-- The attributes of a node are the other nodes that have it for a parent. -/
theorem mem_attributesOf_iff_parent :
    node ∈ tree.attributesOf above ↔ tree.has node = true ∧ node.parent? = some above ∧
      tree.kind? node = some .attribute := by
  rw [mem_attributesOf]
  constructor
  · rintro ⟨index, rfl, hhas⟩
    have hkind := mt (exists_child_iff hhas).1 (by simp)
    exact ⟨hhas, Address.parent?_eq_some_iff.2 ⟨_, rfl⟩, not_not.1 hkind⟩
  · rintro ⟨hhas, hparent, hkind⟩
    obtain ⟨edge, rfl⟩ := Address.parent?_eq_some_iff.1 hparent
    cases edge with
    | child index => exact absurd hkind ((exists_child_iff hhas).2 ⟨index, rfl⟩)
    | «attribute» index => exact ⟨index, rfl, hhas⟩

/-- A tree stands at an element. -/
theorem subtree?_isSome_of_element (h : tree.kind? node = some .element) :
    (tree.subtree? node).isSome = true :=
  subtree?_isSome_iff.2 ⟨has_of_kind? h, by simp [h]⟩

/-- An element is a child of the node above it. -/
theorem mem_childrenOf_iff (h : tree.kind? node = some .element) :
    node ∈ tree.childrenOf above ↔ node.parent? = some above := by
  simp [mem_childrenOf_iff_parent, has_of_kind? h, h]

/-- A node is below `start` if the node above it is `start` or a descendant of `start`. -/
theorem exists_parent_iff {start : Address} (h : tree.has node = true) :
    (∃ above, (above = start ∨ above ∈ tree.descendantsOf start) ∧ node.parent? = some above) ↔
      start ∈ node.ancestors := by
  rw [Address.mem_ancestors]
  constructor
  · intro hcase
    rcases hcase with ⟨above, habove, hparent⟩
    obtain ⟨edge, rfl⟩ := Address.parent?_eq_some_iff.1 hparent
    rcases habove with rfl | hbelow
    · exact ⟨[edge], List.cons_ne_nil _ _, rfl⟩
    · obtain ⟨rest, -, rfl, -⟩ := mem_descendantsOf.1 hbelow
      exact ⟨rest ++ [edge], List.append_ne_nil_of_right_ne_nil _ (List.cons_ne_nil _ _),
        List.append_assoc _ _ _⟩
  · intro hcase
    rcases hcase with ⟨rest, hne, rfl⟩
    rcases List.eq_nil_or_concat rest with rfl | ⟨first, last, rfl⟩
    · exact absurd rfl hne
    · rw [List.concat_eq_append, ← List.append_assoc] at h ⊢
      obtain ⟨subtree, hsubtree, -⟩ := subtree?_of_has_append (List.cons_ne_nil _ _) h
      refine ⟨start ++ first, ?_, Address.parent?_eq_some_iff.2 ⟨last, rfl⟩⟩
      by_cases hfirst : first = []
      · exact .inl (by rw [hfirst, List.append_nil])
      · right
        exact mem_descendantsOf.2 ⟨first, hfirst, rfl, by rw [hsubtree]; rfl⟩

theorem mem_ancestors_of_mem_descendantsOf (h : node ∈ tree.descendantsOf above) :
    above ∈ node.ancestors := by
  obtain ⟨rest, hne, rfl, -⟩ := mem_descendantsOf.1 h
  exact Address.mem_ancestors.2 ⟨rest, hne, rfl⟩

end Tree
end TreeSelect
