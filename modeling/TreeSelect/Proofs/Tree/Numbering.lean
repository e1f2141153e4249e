import TreeSelect.Tree.Ancestry
import TreeSelect.Proofs.Tree.DocumentOrder
import TreeSelect.Proofs.Tree.Nodes

/-!
# The order of nodes is the order of their numbers

Three descriptions of document order agree: `Address.compare` on the ways from the root, the numbers
that `Tree.nodes` gives, and the comparison by ancestors.  All rests on one fact about lists,
`InDocumentOrder.compare_idxOf?`: in a list in document order the positions of two nodes compare as
the nodes do.  `inDocumentOrder_nodes` applies it to the numbers, `inDocumentOrder_offspring` to the
nodes where two lines part.

* `mem_nodes`: the listing of a tree holds its nodes.
* `compareLines_wayFrom`: lines compare as the addresses they lead to.
* `documentOrder_eq_sortByAncestors`: nodes of a tree may be sorted by either comparison.
-/

namespace TreeSelect

namespace Address

/-- What two addresses share does not matter for their order. -/
theorem compare_append_left (start s t : Address) :
    compare (start ++ s) (start ++ t) = compare s t := by
  induction start with
  | nil => rfl
  | cons edge start ih =>
    have hedge : edge.compare edge = .eq := Std.ReflCmp.compare_self
    rw [List.cons_append, List.cons_append, compare, hedge, ih]
    rfl

/-- The first edges decide unless they are equal. -/
theorem compare_cons_of_ne {a b : Edge} (hne : a ≠ b) (s t : Address) :
    compare (a :: s) (b :: t) = compare [a] [b] := by
  have hedge : a.compare b ≠ .eq := fun heq => hne (Std.LawfulEqCmp.eq_of_compare heq)
  rw [compare, compare]
  cases hcompare : a.compare b with
  | lt => rfl
  | eq => exact absurd hcompare hedge
  | gt => rfl

/-! ## Positions in a list in document order -/

/-- In a list in document order the positions of two nodes compare as the nodes do. -/
theorem InDocumentOrder.compare_idxOf? {nodes : List Address} (h : InDocumentOrder nodes)
    {s t : Address} (hs : s ∈ nodes) (ht : t ∈ nodes) :
    ∃ i j, nodes.idxOf? s = some i ∧ nodes.idxOf? t = some j ∧ Ord.compare i j = compare s t := by
  have hposition : ∀ node ∈ nodes, ∃ i, nodes.idxOf? node = some i ∧ nodes[i]? = some node := by
    intro node hnode
    obtain ⟨i, hi⟩ : ∃ i, nodes.idxOf? node = some i := by
      cases hidx : nodes.idxOf? node with
      | none => exact absurd hnode (List.idxOf?_eq_none_iff.1 hidx)
      | some i => exact ⟨i, rfl⟩
    obtain ⟨hlt, hget, -⟩ := List.idxOf?_eq_some_iff.1 hi
    exact ⟨i, hi, by rw [List.getElem?_eq_getElem hlt, hget]⟩
  have hincreasing : ∀ (i j : Nat) (s t : Address), nodes[i]? = some s →
      nodes[j]? = some t → i < j → compare s t = .lt := by
    intro i j s t hi hj hlt
    obtain ⟨hilt, rfl⟩ := List.getElem?_eq_some_iff.1 hi
    obtain ⟨hjlt, rfl⟩ := List.getElem?_eq_some_iff.1 hj
    exact List.pairwise_iff_getElem.1 h i j hilt hjlt hlt
  obtain ⟨i, hsi, hi⟩ := hposition s hs
  obtain ⟨j, htj, hj⟩ := hposition t ht
  refine ⟨i, j, hsi, htj, ?_⟩
  rcases Nat.lt_trichotomy i j with hlt | heq | hgt
  · rw [Nat.compare_eq_lt.2 hlt, hincreasing i j s t hi hj hlt]
  · subst heq
    rw [hi] at hj
    cases hj
    rw [Nat.compare_eq_eq.2 rfl, compare_self]
  · rw [Nat.compare_eq_gt.2 hgt, compare_swap, hincreasing j i t s hj hi hgt]
    rfl

theorem InDocumentOrder.map_append {nodes : List Address} (h : InDocumentOrder nodes)
    (start : Address) : InDocumentOrder (nodes.map (start ++ ·)) := by
  rw [InDocumentOrder, List.pairwise_map]
  refine List.Pairwise.imp ?_ h
  intro s t hlt
  rw [compare_append_left, hlt]

/-- Numbered edges of one kind are in the order of the numbers. -/
theorem inDocumentOrder_map_range (edge : Nat → Edge)
    (hedge : ∀ i j, (edge i).compare (edge j) = Ord.compare i j) (count : Nat) :
    InDocumentOrder ((List.range count).map fun i => [edge i]) := by
  rw [InDocumentOrder, List.pairwise_map]
  refine List.Pairwise.imp ?_ List.pairwise_lt_range
  intro i j hlt
  rw [compare, hedge, Nat.compare_eq_lt.2 hlt]
  rfl

end Address

namespace Tree

open Address

/-! ## The listing of a tree -/

mutual

/-- The listing of a tree holds its nodes. -/
theorem mem_nodes (tree : Tree) (node : Address) :
    node ∈ tree.nodes ↔ tree.has node = true := by
  match tree with
  | .node label attributes children =>
    rw [nodes, List.mem_append, mem_nodesFrom, List.mem_cons, List.mem_map]
    constructor
    · intro hcase
      rcases hcase with (rfl | ⟨index, hindex, rfl⟩) | ⟨place, rest, child, rfl, hchild, hrest⟩
      · exact has_nil _
      · exact has_attribute.2 (List.mem_range.1 hindex)
      · rw [has, at?, Tree.children, Nat.zero_add, hchild]
        exact hrest
    · intro h
      match node with
      | [] => exact .inl (.inl rfl)
      | [.attribute index] =>
        exact .inl (.inr ⟨index, List.mem_range.2 (has_attribute.1 h), rfl⟩)
      | .attribute index :: next :: rest => simp [has, at?] at h
      | .child index :: rest =>
        right
        rw [has, at?, Tree.children] at h
        cases hchild : children[index]? with
        | none => simp [hchild] at h
        | some child =>
          exact ⟨index, rest, child, by rw [Nat.zero_add], hchild, by simpa [hchild, has] using h⟩

/-- The same for neighbouring children, which are numbered from `index` on. -/
theorem mem_nodesFrom (index : Nat) (trees : List Tree) (node : Address) :
    node ∈ nodesFrom index trees ↔
      ∃ place rest tree, node = .child (index + place) :: rest ∧ trees[place]? = some tree ∧
        tree.has rest = true := by
  match trees with
  | [] => simp [nodesFrom]
  | first :: others =>
    rw [nodesFrom, List.mem_append, List.mem_map, mem_nodesFrom (index + 1) others node]
    constructor
    · intro hcase
      rcases hcase with ⟨rest, hrest, rfl⟩ | ⟨place, rest, tree, rfl, htree, hrest⟩
      · exact ⟨0, rest, first, rfl, rfl, (mem_nodes first rest).1 hrest⟩
      · exact ⟨place + 1, rest, tree, by rw [Nat.add_assoc, Nat.add_comm 1 place], htree, hrest⟩
    · intro hcase
      rcases hcase with ⟨place, rest, tree, rfl, htree, hrest⟩
      cases place with
      | zero =>
        left
        cases htree
        exact ⟨rest, (mem_nodes first rest).2 hrest, rfl⟩
      | succ place =>
        right
        exact ⟨place, rest, tree, by rw [Nat.add_assoc, Nat.add_comm 1 place], htree, hrest⟩

end

mutual

theorem inDocumentOrder_nodes (tree : Tree) : InDocumentOrder tree.nodes := by
  match tree with
  | .node label attributes children =>
    rw [nodes, InDocumentOrder, List.pairwise_append]
    refine ⟨List.Pairwise.cons ?_ (inDocumentOrder_map_range .attribute (fun _ _ => rfl) _),
      inDocumentOrder_nodesFrom 0 children, ?_⟩
    · intro node hnode
      obtain ⟨index, -, rfl⟩ := List.mem_map.1 hnode
      rfl
    · intro node hnode other hother
      obtain ⟨place, rest, tree, rfl, -, -⟩ := (mem_nodesFrom 0 children other).1 hother
      rcases List.mem_cons.1 hnode with rfl | hattribute
      · rfl
      · obtain ⟨index, -, rfl⟩ := List.mem_map.1 hattribute
        rfl

/-- Of neighbouring children, all nodes of the first come before those of the others. -/
theorem inDocumentOrder_nodesFrom (index : Nat) (trees : List Tree) :
    InDocumentOrder (nodesFrom index trees) := by
  match trees with
  | [] => exact List.Pairwise.nil
  | first :: others =>
    rw [nodesFrom, InDocumentOrder, List.pairwise_append]
    refine ⟨(inDocumentOrder_nodes first).map_append [.child index],
      inDocumentOrder_nodesFrom (index + 1) others, ?_⟩
    intro node hnode other hother
    obtain ⟨rest, -, rfl⟩ := List.mem_map.1 hnode
    obtain ⟨place, rest', tree, rfl, -, -⟩ := (mem_nodesFrom (index + 1) others other).1 hother
    have hlt : Ord.compare index (index + 1 + place) = .lt := Nat.compare_eq_lt.2 (by omega)
    rw [Address.compare, Edge.compare, hlt]
    rfl

end

/-- The attributes of a node and then its children are in document order. -/
theorem inDocumentOrder_offspring (tree : Tree) (above : Address) :
    InDocumentOrder (tree.attributesOf above ++ tree.childrenOf above) := by
  unfold attributesOf childrenOf
  cases hsubtree : tree.subtree? above with
  | none => exact List.Pairwise.nil
  | some subtree =>
    have hattributes := (inDocumentOrder_map_range .attribute (fun _ _ => rfl)
      subtree.attributes.size).map_append above
    have hchildren := (inDocumentOrder_map_range .child (fun _ _ => rfl)
      subtree.children.length).map_append above
    rw [List.map_map] at hattributes hchildren
    refine List.pairwise_append.2 ⟨hattributes, hchildren, ?_⟩
    intro node hnode other hother
    obtain ⟨i, -, rfl⟩ := List.mem_map.1 hnode
    obtain ⟨j, -, rfl⟩ := List.mem_map.1 hother
    rw [compare_append_left]
    rfl

theorem mem_offspring {tree : Tree} {above : Address} {edge : Edge}
    (h : tree.has (above ++ [edge]) = true) :
    above ++ [edge] ∈ tree.attributesOf above ++ tree.childrenOf above := by
  rw [List.mem_append]
  cases edge with
  | «attribute» index => exact .inl (mem_attributesOf.2 ⟨index, rfl, h⟩)
  | child index => exact .inr (mem_childrenOf.2 ⟨index, rfl, h⟩)

end Tree

/-! ## Lines -/

namespace Address

/-- The nodes on the way from a node, which is left out, to the node at its end. -/
def wayFrom (start : Address) : Address → List Address
  | [] => []
  | edge :: rest => (start ++ [edge]) :: wayFrom (start ++ [edge]) rest

theorem map_take_eq_wayFrom (start way : Address) :
    (List.range way.length).map (fun count => start ++ way.take count) ++ [start ++ way] =
      start :: wayFrom start way := by
  induction way generalizing start with
  | nil => simp [wayFrom]
  | cons edge rest ih =>
    have hrest := ih (start ++ [edge])
    rw [List.length_cons, List.range_succ_eq_map, List.map_cons, List.map_map, wayFrom,
      List.cons_append, ← hrest]
    simp [Function.comp_def]

/-- The ancestors and the node are the root and the nodes on the way from it. -/
theorem ancestors_reverse (node : Address) :
    node.ancestors.reverse ++ [node] = [] :: wayFrom [] node := by
  rw [ancestors, ← List.map_reverse, List.reverse_reverse, ← map_take_eq_wayFrom]
  rfl

end Address

namespace Place

theorem line_eq (tree : Nat) (address : Address) :
    line ⟨tree, address⟩ = ⟨tree, []⟩ :: (Address.wayFrom [] address).map (⟨tree, ·⟩) := by
  rw [line, Address.ancestors_reverse, List.map_cons]

theorem idxOf?_map_place (tree : Nat) (nodes : List Address) (node : Address) :
    (nodes.map (Place.mk tree)).idxOf? ⟨tree, node⟩ = nodes.idxOf? node := by
  rw [List.idxOf?, List.findIdx?_map, List.idxOf?]
  congr 1
  funext other
  rw [Function.comp, Bool.eq_iff_iff, beq_iff_eq, beq_iff_eq, Place.mk.injEq]
  exact and_iff_right rfl

/-- The positions of two nodes among the offspring of a node compare as the nodes do. -/
theorem compare_offspring {trees : Nat → Tree} {tree : Nat} {above : Address} {a b : Edge}
    (ha : (trees tree).has (above ++ [a]) = true) (hb : (trees tree).has (above ++ [b]) = true) :
    ∃ i j, (offspring trees ⟨tree, above⟩).idxOf? ⟨tree, above ++ [a]⟩ = some i ∧
      (offspring trees ⟨tree, above⟩).idxOf? ⟨tree, above ++ [b]⟩ = some j ∧
      Ord.compare i j = Address.compare [a] [b] := by
  obtain ⟨i, j, hi, hj, hcompare⟩ :=
    (Tree.inDocumentOrder_offspring (trees tree) above).compare_idxOf?
      (Tree.mem_offspring ha) (Tree.mem_offspring hb)
  rw [Address.compare_append_left] at hcompare
  rw [offspring, idxOf?_map_place, idxOf?_map_place]
  exact ⟨i, j, hi, hj, hcompare⟩

/-- Lines that have come together as far as `above` compare as the rest of the ways. -/
theorem compareLines_wayFrom {trees : Nat → Tree} {tree : Nat} (above s t : Address)
    (hs : (trees tree).has (above ++ s) = true) (ht : (trees tree).has (above ++ t) = true) :
    compareLines trees (some ⟨tree, above⟩) ((Address.wayFrom above s).map (Place.mk tree))
      ((Address.wayFrom above t).map (Place.mk tree)) = some (Address.compare s t) := by
  induction s generalizing above t with
  | nil =>
    cases t with
    | nil => rfl
    | cons b t =>
      rw [Address.wayFrom, Address.wayFrom, List.map_nil, List.map_cons, compareLines,
        List.length_nil, List.length_cons]
      · exact congrArg some (Nat.compare_eq_lt.2 (Nat.zero_lt_succ _))
      · intro _ _ _ _ hnil
        cases hnil
  | cons a s ih =>
    cases t with
    | nil =>
      rw [Address.wayFrom, Address.wayFrom, List.map_nil, List.map_cons, compareLines,
        List.length_nil, List.length_cons]
      · exact congrArg some (Nat.compare_eq_gt.2 (Nat.zero_lt_succ _))
      · intro _ _ _ _ _ hnil
        cases hnil
    | cons b t =>
      rw [List.append_cons] at hs ht
      rw [Address.wayFrom, Address.wayFrom, List.map_cons, List.map_cons, compareLines]
      by_cases hedge : a = b
      · subst hedge
        have hsame : Edge.compare a a = .eq := Std.ReflCmp.compare_self
        rw [if_pos rfl, ih (above ++ [a]) t hs ht, Address.compare, hsame]
        rfl
      · have hne : Place.mk tree (above ++ [a]) ≠ Place.mk tree (above ++ [b]) := by
          intro hsame
          rw [Place.mk.injEq] at hsame
          exact hedge (List.cons.inj (List.append_cancel_left hsame.2)).1
        obtain ⟨i, j, hi, hj, hcompare⟩ :=
          compare_offspring (Tree.has_of_has_append hs) (Tree.has_of_has_append ht)
        rw [if_neg hne, Address.compare_cons_of_ne hedge, ← hcompare]
        show (offspring trees ⟨tree, above⟩).idxOf? ⟨tree, above ++ [a]⟩ >>= _ = _
        rw [hi]
        show (offspring trees ⟨tree, above⟩).idxOf? ⟨tree, above ++ [b]⟩ >>= _ = _
        rw [hj]
        rfl

/-- Comparing by ancestors compares the ways from the root; it gives nothing for nodes of two
trees. -/
theorem orderByAncestors?_eq_compare? {trees : Nat → Tree} {a b : Place}
    (ha : (trees a.tree).has a.address = true) (hb : (trees b.tree).has b.address = true) :
    orderByAncestors? trees a b = compare? a b := by
  obtain ⟨tree, s⟩ := a
  obtain ⟨other, t⟩ := b
  rw [orderByAncestors?, compare?, line_eq, line_eq, compareLines]
  by_cases htree : tree = other
  · subst htree
    rw [if_pos rfl, if_pos rfl, compareLines_wayFrom [] s t ha hb]
    split
    case isTrue hsame =>
      cases hsame
      rw [Address.compare_self]
    case isFalse => rfl
  · have hne : ∀ s t, Place.mk tree s ≠ Place.mk other t := by
      intro s t hsame
      cases hsame
      exact htree rfl
    rw [if_neg (hne s t), if_neg (hne [] []), if_neg htree]
    rfl

/-! ## Numbers -/

/-- Nodes of one tree compare as their numbers in the listing of the tree. -/
theorem compare?_number? {trees : Nat → Tree} {a b : Place}
    (ha : (trees a.tree).has a.address = true) (hb : (trees b.tree).has b.address = true)
    (htree : a.tree = b.tree) :
    ∃ i j, (trees a.tree).number? a.address = some i ∧ (trees b.tree).number? b.address = some j ∧
      compare? a b = some (Ord.compare i j) := by
  rw [compare?, if_pos htree]
  rw [← htree] at hb ⊢
  obtain ⟨i, j, hi, hj, hcompare⟩ :=
    (Tree.inDocumentOrder_nodes (trees a.tree)).compare_idxOf?
      ((Tree.mem_nodes _ _).2 ha) ((Tree.mem_nodes _ _).2 hb)
  exact ⟨i, j, hi, hj, congrArg some hcompare.symm⟩

theorem compare?_eq_none {a b : Place} : compare? a b = none ↔ a.tree ≠ b.tree := by
  rw [compare?]
  split <;> simp_all

/-- Only a node and itself compare as equal, whichever trees they are from. -/
theorem compare?_eq_some_eq {a b : Place} : compare? a b = some .eq ↔ a = b := by
  obtain ⟨tree, s⟩ := a
  obtain ⟨other, t⟩ := b
  rw [compare?, Place.mk.injEq]
  split
  case isTrue htree => rw [Option.some.injEq, Address.compare_eq_iff, and_iff_right htree]
  case isFalse htree =>
    constructor
    · intro h
      cases h
    · intro h
      exact absurd h.1 htree

theorem compare?_swap (a b : Place) : compare? b a = (compare? a b).map Ordering.swap := by
  rw [compare?, compare?]
  by_cases htree : a.tree = b.tree
  · rw [if_pos htree, if_pos htree.symm, Address.compare_swap b.address a.address]
    rfl
  · rw [if_neg htree, if_neg fun h => htree h.symm]
    rfl

theorem compare?_trans {a b c : Place} (hab : compare? a b = some .lt)
    (hbc : compare? b c = some .lt) : compare? a c = some .lt := by
  rw [compare?] at hab hbc ⊢
  by_cases hfirst : a.tree = b.tree
  · by_cases hsecond : b.tree = c.tree
    · rw [if_pos hfirst, Option.some.injEq] at hab
      rw [if_pos hsecond, Option.some.injEq] at hbc
      rw [if_pos (hfirst.trans hsecond), Std.TransCmp.lt_trans hab hbc]
    · rw [if_neg hsecond] at hbc
      cases hbc
  · rw [if_neg hfirst] at hab
    cases hab

/-- Comparing by ancestors orders the nodes of each built tree by their numbers and no nodes of two
trees, so that it is a strict total order on each tree that only takes a node for itself. -/
theorem ancestry_orders_by_number (trees : Nat → Tree) (a b : Place)
    (ha : (trees a.tree).has a.address = true) (hb : (trees b.tree).has b.address = true) :
    (orderByAncestors? trees a b = none ↔ a.tree ≠ b.tree) ∧
    (a.tree = b.tree → ∃ i j, (trees a.tree).number? a.address = some i ∧
      (trees b.tree).number? b.address = some j ∧
      orderByAncestors? trees a b = some (Ord.compare i j)) ∧
    (orderByAncestors? trees a b = some .eq ↔ a = b) ∧
    orderByAncestors? trees b a = (orderByAncestors? trees a b).map Ordering.swap ∧
    ∀ c, (trees c.tree).has c.address = true → orderByAncestors? trees a b = some .lt →
      orderByAncestors? trees b c = some .lt → orderByAncestors? trees a c = some .lt := by
  rw [orderByAncestors?_eq_compare? ha hb, orderByAncestors?_eq_compare? hb ha]
  refine ⟨compare?_eq_none, compare?_number? ha hb, compare?_eq_some_eq, compare?_swap a b, ?_⟩
  intro c hc hab hbc
  rw [orderByAncestors?_eq_compare? hb hc] at hbc
  rw [orderByAncestors?_eq_compare? ha hc]
  exact compare?_trans hab hbc

/-- The second of two equal children comes after the first, and neither has an order with the nodes
of another tree built alike. -/
theorem ancestry_orders_by_number_twins :
    let twins : Tree := .node (.element ['u']) .empty [.text ['a'], .text ['a']]
    orderByAncestors? (fun _ => twins) ⟨0, [.child 0]⟩ ⟨0, [.child 1]⟩ = some .lt ∧
      orderByAncestors? (fun _ => twins) ⟨0, [.child 0]⟩ ⟨1, [.child 1]⟩ = none := by
  intro twins
  have hsame := ancestry_orders_by_number (fun _ => twins) ⟨0, [.child 0]⟩ ⟨0, [.child 1]⟩
    (by decide) (by decide)
  have hother := ancestry_orders_by_number (fun _ => twins) ⟨0, [.child 0]⟩ ⟨1, [.child 1]⟩
    (by decide) (by decide)
  obtain ⟨i, j, hi, hj, hcompare⟩ := hsame.2.1 rfl
  refine ⟨?_, hother.1.2 (by decide)⟩
  have hone : twins.number? [.child 0] = some 1 := by decide
  have htwo : twins.number? [.child 1] = some 2 := by decide
  rw [hone] at hi
  rw [htwo] at hj
  cases hi
  cases hj
  exact hcompare

end Place

/-! ## Sorting -/

section Sorting

open Place (orderByAncestors?)

variable {trees : Nat → Tree} {number : Nat} {nodes : List Address}

/-- Sorting compares nothing but elements of the list. -/
theorem mergeSort_congr {α : Type} {r s : α → α → Bool} {list : List α}
    (h : ∀ a ∈ list, ∀ b ∈ list, r a b = s a b) : list.mergeSort r = list.mergeSort s := by
  have hmap := List.map_mergeSort (r := r) (s := s) (f := id) h
  rwa [List.map_id, List.map_id] at hmap

/-- Two nodes of one tree always have an order by their ancestors. -/
theorem Place.orderByAncestors?_of_has {s t : Address} (hs : (trees number).has s = true)
    (ht : (trees number).has t = true) :
    orderByAncestors? trees ⟨number, s⟩ ⟨number, t⟩ = some (s.compare t) := by
  rw [orderByAncestors?_eq_compare? hs ht, compare?, if_pos rfl]

/-- Nodes of a tree are sorted by their ancestors as by the ways to them. -/
theorem Address.documentOrder_eq_sortByAncestors
    (h : ∀ node ∈ nodes, (trees number).has node = true) :
    documentOrder nodes = sortByAncestors trees number nodes := by
  rw [documentOrder, sortByAncestors]
  congr 1
  refine mergeSort_congr fun a ha b hb => ?_
  rw [Place.orderByAncestors?_of_has (h a ha) (h b hb), Option.getD_some, le]

/-- A list of nodes of a tree is in document order exactly if by their ancestors each comes before all
that follow it. -/
theorem Address.inDocumentOrder_iff_orderByAncestors?
    (h : ∀ node ∈ nodes, (trees number).has node = true) :
    InDocumentOrder nodes ↔ nodes.Pairwise fun a b =>
      orderByAncestors? trees ⟨number, a⟩ ⟨number, b⟩ = some .lt := by
  refine List.Pairwise.iff_of_mem fun {a b} ha hb => ?_
  rw [Place.orderByAncestors?_of_has (h a ha) (h b hb), Option.some.injEq]

end Sorting

end TreeSelect
