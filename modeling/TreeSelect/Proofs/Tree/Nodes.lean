import TreeSelect.Tree.Order

/-!
# The nodes of a tree by their addresses

An address leads to a node of the tree if each of its edges does.  `at?_append` follows an address
in two parts, and the other lemmas read off it which addresses the listings of a tree hold:
`mem_childrenOf`, `mem_attributesOf` and `mem_descendantsOf`.
-/

namespace TreeSelect.Tree

/-! ## Addresses in two parts -/

theorem subtree?_eq_some {tree subtree : Tree} {address : Address} :
    tree.subtree? address = some subtree ↔ tree.at? address = some (.subtree subtree) := by
  unfold subtree?
  split
  case h_1 other h => simp [h]
  case h_2 h =>
    constructor
    · intro hnone
      cases hnone
    · intro hsome
      exact absurd hsome (h subtree)

@[simp] theorem subtree?_nil (tree : Tree) : tree.subtree? [] = some tree := by
  rw [subtree?_eq_some, at?]

theorem has_of_subtree? {tree subtree : Tree} {address : Address}
    (h : tree.subtree? address = some subtree) : tree.has address = true := by
  rw [has, subtree?_eq_some.1 h]
  rfl

@[simp] theorem has_nil (tree : Tree) : tree.has [] = true :=
  has_of_subtree? (subtree?_nil tree)

/-- An address that goes on goes on from a tree. -/
theorem at?_append {tree : Tree} {s t : Address} (ht : t ≠ []) :
    tree.at? (s ++ t) = (tree.subtree? s).bind fun subtree => subtree.at? t := by
  induction s generalizing tree with
  | nil => rw [subtree?_nil, List.nil_append, Option.bind_some]
  | cons edge s ih =>
    match edge with
    | .attribute index =>
      obtain ⟨next, rest, hst⟩ :=
        List.exists_cons_of_ne_nil (List.append_ne_nil_of_right_ne_nil s ht)
      have hnone : tree.subtree? (.attribute index :: s) = none := by
        unfold subtree?
        cases s with
        | nil =>
          rw [at?]
          cases tree.attributes.entries[index]? <;> rfl
        | cons => rw [at?]
      rw [hnone, List.cons_append, hst, at?]
      rfl
    | .child index =>
      rw [List.cons_append, at?]
      cases hchild : tree.children[index]? with
      | none =>
        have hnone : tree.subtree? (.child index :: s) = none := by
          unfold subtree?
          rw [at?, hchild]
          rfl
        rw [hnone]
        rfl
      | some child =>
        have hsome : tree.subtree? (.child index :: s) = child.subtree? s := by
          unfold subtree?
          rw [at?, hchild]
          rfl
        rw [hsome, ← ih]
        rfl

theorem subtree?_append (tree : Tree) (s t : Address) :
    tree.subtree? (s ++ t) = (tree.subtree? s).bind fun subtree => subtree.subtree? t := by
  by_cases ht : t = []
  · subst ht
    rw [List.append_nil]
    cases tree.subtree? s with
    | none => rfl
    | some subtree => exact (subtree?_nil subtree).symm
  · unfold subtree?
    rw [at?_append ht, subtree?]
    cases tree.at? s with
    | none => rfl
    | some content => cases content <;> rfl

/-- The nodes above a node are in the tree too, and trees stand there. -/
theorem subtree?_of_has_append {tree : Tree} {s t : Address} (ht : t ≠ [])
    (h : tree.has (s ++ t) = true) :
    ∃ subtree, tree.subtree? s = some subtree ∧ subtree.has t = true := by
  rw [has, at?_append ht] at h
  cases hs : tree.subtree? s with
  | none => simp [hs] at h
  | some subtree => exact ⟨subtree, rfl, by simpa [hs, has] using h⟩

theorem has_append {tree subtree : Tree} {s t : Address} (hs : tree.subtree? s = some subtree)
    (h : subtree.has t = true) : tree.has (s ++ t) = true := by
  by_cases ht : t = []
  · rw [ht, List.append_nil]
    exact has_of_subtree? hs
  · rw [has, at?_append ht, hs]
    exact h

theorem has_of_has_append {tree : Tree} {s t : Address} (h : tree.has (s ++ t) = true) :
    tree.has s = true := by
  by_cases ht : t = []
  · rwa [ht, List.append_nil] at h
  · obtain ⟨subtree, hs, -⟩ := subtree?_of_has_append ht h
    exact has_of_subtree? hs

theorem has_of_prefix {tree : Tree} {s t : Address} (h : tree.has t = true) (hst : s <+: t) :
    tree.has s = true := by
  obtain ⟨rest, rfl⟩ := hst
  exact has_of_has_append h

/-! ## Children and attributes -/

theorem has_child {tree : Tree} {index : Nat} :
    tree.has [.child index] = true ↔ index < tree.children.length := by
  rw [has, at?, Option.isSome_bind]
  cases hchild : tree.children[index]? with
  | none => simpa using hchild
  | some child =>
    have hlt : index < tree.children.length := (List.getElem?_eq_some_iff.1 hchild).1
    simp [at?, hlt]

theorem has_attribute {tree : Tree} {index : Nat} :
    tree.has [.attribute index] = true ↔ index < tree.attributes.size := by
  rw [has, at?, Option.isSome_map, OrderedMap.size]
  cases hentry : tree.attributes.entries[index]? with
  | none => simpa using hentry
  | some entry =>
    have hlt : index < tree.attributes.entries.length := (List.getElem?_eq_some_iff.1 hentry).1
    simp [hlt]

/-- The children of a node, and its attributes, are the nodes one numbered edge further on. -/
theorem mem_numbered {tree : Tree} {address node : Address} {count : Tree → Nat}
    {edge : Nat → Edge}
    (hcount : ∀ (subtree : Tree) (index : Nat),
      subtree.has [edge index] = true ↔ index < count subtree) :
    (node ∈ match tree.subtree? address with
      | some subtree => (List.range (count subtree)).map fun index => address ++ [edge index]
      | none => []) ↔
      ∃ index, node = address ++ [edge index] ∧ tree.has node = true := by
  split
  case h_1 subtree h =>
    simp only [List.mem_map, List.mem_range]
    constructor
    · intro hcase
      rcases hcase with ⟨index, hlt, rfl⟩
      exact ⟨index, rfl, has_append h ((hcount subtree index).2 hlt)⟩
    · intro hcase
      rcases hcase with ⟨index, rfl, hhas⟩
      obtain ⟨other, hother, hindex⟩ := subtree?_of_has_append (List.cons_ne_nil _ _) hhas
      rw [h] at hother
      cases hother
      exact ⟨index, (hcount subtree index).1 hindex, rfl⟩
  case h_2 h =>
    constructor
    · intro hnode
      cases hnode
    · intro hcase
      rcases hcase with ⟨index, rfl, hhas⟩
      obtain ⟨subtree, hsubtree, -⟩ := subtree?_of_has_append (List.cons_ne_nil _ _) hhas
      rw [h] at hsubtree
      cases hsubtree

theorem mem_childrenOf {tree : Tree} {address node : Address} :
    node ∈ tree.childrenOf address ↔
      ∃ index, node = address ++ [.child index] ∧ tree.has node = true :=
  mem_numbered fun _ _ => has_child

theorem mem_attributesOf {tree : Tree} {address node : Address} :
    node ∈ tree.attributesOf address ↔
      ∃ index, node = address ++ [.attribute index] ∧ tree.has node = true :=
  mem_numbered fun _ _ => has_attribute

/-! ## Descendants -/

theorem subtree?_child (tree : Tree) (index : Nat) (rest : Address) :
    tree.subtree? (.child index :: rest) =
      tree.children[index]?.bind fun child => child.subtree? rest := by
  unfold subtree?
  rw [at?]
  cases tree.children[index]? <;> rfl

theorem subtree?_attribute (tree : Tree) (index : Nat) (rest : Address) :
    tree.subtree? (.attribute index :: rest) = none := by
  unfold subtree?
  cases rest with
  | nil =>
    rw [at?]
    cases tree.attributes.entries[index]? <;> rfl
  | cons => rw [at?]

mutual

/-- The descendants are the nodes below the root where trees stand. -/
theorem mem_descendants (tree : Tree) (node : Address) :
    node ∈ tree.descendants ↔ node ≠ [] ∧ (tree.subtree? node).isSome = true := by
  match tree with
  | .node label attributes children =>
    rw [descendants, mem_descendantsFrom]
    constructor
    · intro hcase
      rcases hcase with ⟨place, rest, child, rfl, hchild, hrest⟩
      refine ⟨List.cons_ne_nil _ _, ?_⟩
      rw [subtree?_child, Nat.zero_add, Tree.children, hchild]
      exact hrest
    · intro hcase
      rcases hcase with ⟨hne, hsome⟩
      obtain ⟨edge, rest, rfl⟩ := List.exists_cons_of_ne_nil hne
      match edge with
      | .attribute index => simp [subtree?_attribute] at hsome
      | .child index =>
        rw [subtree?_child, Tree.children] at hsome
        cases hchild : children[index]? with
        | none => simp [hchild] at hsome
        | some child =>
          exact ⟨index, rest, child, by rw [Nat.zero_add], hchild, by simpa [hchild] using hsome⟩

/-- The same for neighbouring children, which are numbered from `index` on. -/
theorem mem_descendantsFrom (index : Nat) (trees : List Tree) (node : Address) :
    node ∈ descendantsFrom index trees ↔
      ∃ place rest tree, node = .child (index + place) :: rest ∧ trees[place]? = some tree ∧
        (tree.subtree? rest).isSome = true := by
  match trees with
  | [] => simp [descendantsFrom]
  | first :: others =>
    rw [descendantsFrom, List.mem_append, List.mem_cons, List.mem_map,
      mem_descendantsFrom (index + 1) others node]
    constructor
    · intro hcase
      rcases hcase with (rfl | ⟨rest, hrest, rfl⟩) | ⟨place, rest, tree, rfl, htree, hrest⟩
      · exact ⟨0, [], first, rfl, rfl, by rw [subtree?_nil]; rfl⟩
      · exact ⟨0, rest, first, rfl, rfl, ((mem_descendants first rest).1 hrest).2⟩
      · exact ⟨place + 1, rest, tree, by rw [Nat.add_assoc, Nat.add_comm 1 place], htree, hrest⟩
    · intro hcase
      rcases hcase with ⟨place, rest, tree, rfl, htree, hrest⟩
      cases place with
      | zero =>
        left
        simp only [List.getElem?_cons_zero, Option.some.injEq] at htree
        subst htree
        by_cases hnil : rest = []
        · exact .inl (by rw [hnil, Nat.add_zero])
        · exact .inr ⟨rest, (mem_descendants first rest).2 ⟨hnil, hrest⟩, rfl⟩
      | succ place =>
        right
        exact ⟨place, rest, tree, by rw [Nat.add_assoc, Nat.add_comm 1 place], htree, hrest⟩

end

theorem mem_descendantsOf {tree : Tree} {address node : Address} :
    node ∈ tree.descendantsOf address ↔
      ∃ rest, rest ≠ [] ∧ node = address ++ rest ∧ (tree.subtree? node).isSome = true := by
  unfold descendantsOf
  split
  case h_1 subtree h =>
    simp only [List.mem_map, mem_descendants]
    constructor
    · intro hcase
      rcases hcase with ⟨rest, ⟨hne, hsome⟩, rfl⟩
      refine ⟨rest, hne, rfl, ?_⟩
      rw [subtree?_append, h]
      exact hsome
    · intro hcase
      rcases hcase with ⟨rest, hne, rfl, hsome⟩
      rw [subtree?_append, h] at hsome
      exact ⟨rest, ⟨hne, hsome⟩, rfl⟩
  case h_2 h =>
    constructor
    · intro hnode
      cases hnode
    · intro hcase
      rcases hcase with ⟨rest, -, rfl, hsome⟩
      rw [subtree?_append, h] at hsome
      cases hsome

end TreeSelect.Tree
