import TreeSelect.Proofs.OrderedMap
import TreeSelect.Proofs.Tree.Nodes

/-!
# The attributes of a node

An attribute is a node of its own, and its value can also be looked up by its name.  No name occurs
twice at a node, so that both views agree: `attribute?_eq_some_iff` finds the attribute node with the
value that is looked up, and `attribute_unique` says that there is one.
-/

namespace TreeSelect

namespace Tree

/-- What stands at an attribute of a node. -/
theorem at?_attribute (tree : Tree) (node : Address) (index : Nat) :
    tree.at? (node ++ [.attribute index]) =
      (tree.subtree? node).bind fun subtree =>
        subtree.attributes.entries[index]?.map fun entry => .attribute entry.1 entry.2 := by
  rw [at?_append (List.cons_ne_nil _ _)]
  rfl

/-- An attribute of a node with its name and its value. -/
theorem at?_attribute_eq_some {tree : Tree} {node : Address} {index : Nat} {content : Content}
    (h : tree.at? (node ++ [.attribute index]) = some content) :
    ∃ subtree name value, tree.subtree? node = some subtree ∧
      subtree.attributes.entries[index]? = some (name, value) ∧
        content = .attribute name value := by
  rw [at?_attribute] at h
  obtain ⟨subtree, hsubtree, h⟩ := Option.bind_eq_some_iff.1 h
  obtain ⟨⟨name, value⟩, hentry, rfl⟩ := Option.map_eq_some_iff.1 h
  exact ⟨subtree, name, value, hsubtree, hentry, rfl⟩

/-- A value that is looked up is the value of an attribute with that name. -/
theorem attribute?_eq_some_iff {tree : Tree} {node : Address} {name value : Text} :
    tree.attribute? node name = some value ↔
      ∃ index, tree.at? (node ++ [.attribute index]) = some (.attribute name value) := by
  rw [attribute?]
  constructor
  · intro h
    obtain ⟨subtree, hsubtree, hget⟩ := Option.bind_eq_some_iff.1 h
    obtain ⟨index, hentry⟩ := List.mem_iff_getElem?.1 (OrderedMap.get?_eq_some_iff.1 hget)
    refine ⟨index, ?_⟩
    rw [at?_attribute, hsubtree, Option.bind_some, hentry]
    rfl
  · intro hcase
    rcases hcase with ⟨index, h⟩
    obtain ⟨subtree, _, _, hsubtree, hentry, hcontent⟩ := at?_attribute_eq_some h
    cases hcontent
    rw [hsubtree, Option.bind_some]
    exact OrderedMap.get?_eq_some_iff.2 (List.mem_iff_getElem?.2 ⟨index, hentry⟩)

/-- A node has one attribute of a name. -/
theorem attribute_unique {tree : Tree} {node : Address} {name value other : Text} {i j : Nat}
    (hi : tree.at? (node ++ [.attribute i]) = some (.attribute name value))
    (hj : tree.at? (node ++ [.attribute j]) = some (.attribute name other)) : i = j := by
  obtain ⟨subtree, _, _, hsubtree, hentry, hcontent⟩ := at?_attribute_eq_some hi
  cases hcontent
  obtain ⟨same, _, _, hsame, hother, hcontent⟩ := at?_attribute_eq_some hj
  cases hcontent
  rw [hsubtree] at hsame
  cases hsame
  have hkey : ∀ {k : Nat} {v : Text}, subtree.attributes.entries[k]? = some (name, v) →
      (subtree.attributes.entries.map Prod.fst)[k]? = some name := by
    intro k v hk
    rw [List.getElem?_map, hk]
    rfl
  obtain ⟨hlt, -⟩ := List.getElem?_eq_some_iff.1 (hkey hentry)
  exact (List.getElem?_inj hlt subtree.attributes.nodup_keys).1
    ((hkey hentry).trans (hkey hother).symm)

/-- The attribute nodes with a name: none, or the one whose value is looked up by the name. -/
theorem attribute_nodes (tree : Tree) (node : Address) (name : Text) :
    (tree.attribute? node name = none ∧
        ∀ other ∈ tree.attributesOf node, tree.name? other ≠ some name) ∨
      ∃ found, tree.attribute? node name = some (tree.valueAt found) ∧
        ∀ other, other ∈ tree.attributesOf node ∧ tree.name? other = some name ↔ other = found := by
  have hshape : ∀ {other}, other ∈ tree.attributesOf node → tree.name? other = some name →
      ∃ index value, other = node ++ [.attribute index] ∧
        tree.at? other = some (.attribute name value) := by
    intro other hmem hname
    obtain ⟨index, rfl, hhas⟩ := mem_attributesOf.1 hmem
    obtain ⟨content, hcontent⟩ := Option.isSome_iff_exists.1 hhas
    obtain ⟨_, other, value, -, -, rfl⟩ := at?_attribute_eq_some hcontent
    rw [name?, hcontent] at hname
    cases hname
    exact ⟨index, value, rfl, hcontent⟩
  cases hattribute : tree.attribute? node name with
  | none =>
    left
    refine ⟨rfl, ?_⟩
    intro other hmem hname
    obtain ⟨index, value, rfl, hcontent⟩ := hshape hmem hname
    have hsome := attribute?_eq_some_iff.2 ⟨index, hcontent⟩
    rw [hattribute] at hsome
    cases hsome
  | some value =>
    right
    obtain ⟨index, hcontent⟩ := attribute?_eq_some_iff.1 hattribute
    refine ⟨node ++ [.attribute index], ?_, ?_⟩
    · rw [valueAt, hcontent]
      rfl
    · intro other
      constructor
      · intro hcase
        rcases hcase with ⟨hmem, hname⟩
        obtain ⟨place, otherValue, rfl, hother⟩ := hshape hmem hname
        rw [attribute_unique hother hcontent]
      · intro hcase
        subst hcase
        have hhas : tree.has (node ++ [.attribute index]) = true := by
          rw [has, hcontent]
          rfl
        refine ⟨mem_attributesOf.2 ⟨index, rfl, hhas⟩, ?_⟩
        rw [name?, hcontent]
        rfl

end Tree
end TreeSelect
