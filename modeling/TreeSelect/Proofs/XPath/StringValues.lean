import TreeSelect.Proofs.XPath.Axes
import TreeSelect.Proofs.XPath.Conditions

/-!
# String values and text nodes

The string value of an element or a document is gathered on a way through its tree that leaves out
comments and looks below no text.  A query for the text nodes below it goes through all descendants,
tests each of them and puts what is left in document order.  Where nothing stands below texts and
comments, both meet the same texts in the same order.

* `Tree.texts_atOrBelow`: the texts among a node and its descendants are what is gathered there.
  The induction is on the tree at the node.
* `Tree.valueAt_children`: the string values of the children, comments left out, make up that of
  the node.
* `walk_forward`: what a step without predicates leads to from one node.
* `valueAt_eq_texts`: the string value is what the text nodes say that the query finds.
-/

namespace TreeSelect

/-- What is left out gives nothing. -/
theorem flatMap_filter {α β : Type} (p : α → Bool) (f : α → List β) (list : List α) :
    (list.filter p).flatMap f = list.flatMap fun a => if p a then f a else [] := by
  induction list with
  | nil => rfl
  | cons a list ih => by_cases h : p a = true <;> simp [h, ih]

namespace Tree

variable {tree : Tree} {node : Address}

/-! ## Gathered text -/

/-- Whether no text and no comment of a tree has children. -/
def HasBareTexts (tree : Tree) : Prop :=
  ∀ node ∈ tree.nodes, tree.kind? node = some .text ∨ tree.kind? node = some .comment →
    tree.childrenOf node = []

instance (tree : Tree) : Decidable tree.HasBareTexts :=
  inferInstanceAs (Decidable (∀ node ∈ tree.nodes, _))

theorem kind?_of_subtree? {subtree : Tree} (h : tree.subtree? node = some subtree) :
    tree.kind? node = some subtree.label.kind := by
  rw [kind?, subtree?_eq_some.1 h]
  rfl

theorem valueAt_of_subtree? {subtree : Tree} (h : tree.subtree? node = some subtree) :
    tree.valueAt node = subtree.stringValue := by
  rw [valueAt, subtree?_eq_some.1 h]
  rfl

theorem childrenOf_of_subtree? {subtree : Tree} (h : tree.subtree? node = some subtree) :
    tree.childrenOf node =
      (List.range subtree.children.length).map fun index => node ++ [.child index] := by
  rw [childrenOf, h]

theorem subtree?_child_of_subtree? {subtree child : Tree} {index : Nat}
    (h : tree.subtree? node = some subtree) (hchild : subtree.children[index]? = some child) :
    tree.subtree? (node ++ [.child index]) = some child := by
  rw [subtree?_append, h, Option.bind_some, subtree?_child, hchild, Option.bind_some, subtree?_nil]

/-- Below a text or a comment of such a tree stands nothing. -/
theorem HasBareTexts.children_eq_nil {subtree : Tree} (hbare : tree.HasBareTexts)
    (h : tree.subtree? node = some subtree)
    (hkind : subtree.label.kind = .text ∨ subtree.label.kind = .comment) :
    subtree.children = [] := by
  have hnode : node ∈ tree.nodes := (mem_nodes tree node).2 (has_of_subtree? h)
  have hnone := hbare node hnode (by rw [kind?_of_subtree? h]; simpa using hkind)
  rw [childrenOf_of_subtree? h] at hnone
  simpa using hnone

mutual

/-- The texts among a node and its descendants say what is gathered at the node. -/
theorem texts_atOrBelow (hbare : tree.HasBareTexts) (node : Address) (subtree : Tree)
    (h : tree.subtree? node = some subtree) :
    ((node :: subtree.descendants.map (node ++ ·)).filter
      fun other => tree.kind? other = some .text).flatMap tree.valueAt = subtree.gatheredText := by
  match subtree with
  | .node label attributes children =>
    have hkind := kind?_of_subtree? h
    have hvalue := valueAt_of_subtree? h
    have hbelow := texts_below hbare node 0 children fun place child hchild => by
      rw [Nat.zero_add]
      exact subtree?_child_of_subtree? h hchild
    rw [descendants]
    cases label with
    | document => simpa [hkind, Tree.label, Label.kind, gatheredText] using hbelow
    | element name => simpa [hkind, Tree.label, Label.kind, gatheredText] using hbelow
    | text value =>
      obtain rfl : children = [] := hbare.children_eq_nil h (.inl rfl)
      simp [hkind, hvalue, Tree.label, Label.kind, descendantsFrom, gatheredText, stringValue]
    | comment value =>
      obtain rfl : children = [] := hbare.children_eq_nil h (.inr rfl)
      simp [hkind, Tree.label, Label.kind, descendantsFrom, gatheredText]

/-- The same for the neighbouring children of a node, which are numbered from `index` on. -/
theorem texts_below (hbare : tree.HasBareTexts) (node : Address) (index : Nat) (trees : List Tree)
    (h : ∀ place child, trees[place]? = some child →
      tree.subtree? (node ++ [.child (index + place)]) = some child) :
    (((descendantsFrom index trees).map (node ++ ·)).filter
      fun other => tree.kind? other = some .text).flatMap tree.valueAt = gatheredTexts trees := by
  match trees with
  | [] => rfl
  | first :: others =>
    have hfirst := texts_atOrBelow hbare _ first (h 0 first rfl)
    have hothers := texts_below hbare node (index + 1) others fun place child hchild => by
      rw [Nat.add_assoc, Nat.add_comm 1 place]
      exact h (place + 1) child hchild
    rw [descendantsFrom, List.map_append, List.filter_append, List.flatMap_append, hothers,
      gatheredTexts, ← hfirst, List.map_cons, List.map_map, Nat.add_zero]
    simp only [Function.comp_def, List.append_assoc, List.singleton_append]

end

/-- The texts below a node say what is gathered below it. -/
theorem texts_descendantsOf (hbare : tree.HasBareTexts) {subtree : Tree}
    (h : tree.subtree? node = some subtree) :
    ((tree.descendantsOf node).filter fun other => tree.kind? other = some .text).flatMap
      tree.valueAt = gatheredTexts subtree.children := by
  obtain ⟨label, attributes, children⟩ := subtree
  simp only [descendantsOf, h, descendants]
  apply texts_below hbare node 0 children
  intro place child hchild
  rw [Nat.zero_add]
  exact subtree?_child_of_subtree? h hchild

/-! ## Children -/

theorem gatheredTexts_eq (trees : List Tree) :
    gatheredTexts trees = trees.flatMap gatheredText := by
  induction trees with
  | nil => rfl
  | cons first others ih => rw [gatheredTexts, ih, List.flatMap_cons]

/-- A tree adds its string value to the text around it, unless it is a comment. -/
theorem gatheredText_eq (tree : Tree) :
    tree.gatheredText = if tree.label.kind ≠ .comment then tree.stringValue else [] := by
  obtain ⟨label, attributes, children⟩ := tree
  cases label <;> rfl

/-- At an element and at a document stands a tree whose string value is what is gathered below it. -/
theorem exists_gathered
    (h : tree.kind? node = some .element ∨ tree.kind? node = some .document) :
    ∃ subtree, tree.subtree? node = some subtree ∧
      subtree.stringValue = gatheredTexts subtree.children := by
  have hthere : (tree.subtree? node).isSome = true := by
    rcases h with h | h <;> exact subtree?_isSome_iff.2 ⟨has_of_kind? h, by simp [h]⟩
  obtain ⟨subtree, hsubtree⟩ := Option.isSome_iff_exists.1 hthere
  refine ⟨subtree, hsubtree, ?_⟩
  rw [kind?_of_subtree? hsubtree] at h
  obtain ⟨label, attributes, children⟩ := subtree
  cases label with
  | document => rfl
  | element name => rfl
  | text value => simp [Tree.label, Label.kind] at h
  | comment value => simp [Tree.label, Label.kind] at h

/-- The string value of an element or a document is made up of those of its children, comments left
out. -/
theorem valueAt_children
    (h : tree.kind? node = some .element ∨ tree.kind? node = some .document) :
    tree.valueAt node = ((tree.childrenOf node).filter
      fun child => tree.kind? child ≠ some .comment).flatMap tree.valueAt := by
  obtain ⟨subtree, hsubtree, hgathered⟩ := exists_gathered h
  have hadds : (tree.childrenOf node).map (fun child =>
      if tree.kind? child ≠ some .comment then tree.valueAt child else []) =
        subtree.children.map gatheredText := by
    apply List.ext_getElem
    · simp [childrenOf_of_subtree? hsubtree]
    · intro index hlt hlt'
      have hchild := List.getElem?_eq_getElem (l := subtree.children) (by simpa using hlt')
      have hthere := subtree?_child_of_subtree? hsubtree hchild
      simp [childrenOf_of_subtree? hsubtree, kind?_of_subtree? hthere, valueAt_of_subtree? hthere,
        gatheredText_eq]
  rw [valueAt_of_subtree? hsubtree, hgathered, gatheredTexts_eq, List.flatMap_def, ← hadds,
    flatMap_filter, List.flatMap_def]
  simp only [decide_eq_true_eq]

end Tree

namespace XPath

open Address (InDocumentOrder)

variable {tree : Tree} {node : Address}

/-! ## The query for text nodes -/

/-- A step without predicates on a forward axis leads from a node to what the axis lists and the test
lets pass, in this order. -/
theorem walk_forward {axis : Axis} (haxis : axis.isReverse = false) (h : tree.has node = true)
    (test : NodeTest) :
    walk tree [.mk axis test []] [node] = .ok (candidates tree axis test node) := by
  have horder : InDocumentOrder (candidates tree axis test node) := by
    have hnodes := axis.inDocumentOrder_nodes h
    rw [haxis] at hnodes
    exact hnodes.sublist List.filter_sublist
  rw [walk, collect, applyPredicates, collect]
  show walk tree [] (Address.documentOrder (candidates tree axis test node ++ [])) = _
  rw [List.append_nil, Address.documentOrder_eq horder fun _ => Iff.rfl, walk]

/-- A path of one step without predicates on a forward axis gives what the axis and the test give. -/
theorem eval_forward {axis : Axis} (haxis : axis.isReverse = false) {focus : Focus}
    (h : tree.has focus.node = true) (test : NodeTest) :
    eval tree focus (.path .context [.mk axis test []]) =
      .ok (.nodes (candidates tree axis test focus.node)) := by
  rw [eval, startNodes]
  show (do
    let nodes ← walk tree [.mk axis test []] [focus.node]
    return Value.nodes nodes) = _
  rw [walk_forward haxis h]
  rfl

/-- The axis and the node test of an expression that is one step without predicates. -/
def Expr.singleStep? : Expr → Option (Axis × NodeTest)
  | .path .context [.mk axis test []] => some (axis, test)
  | _ => none

theorem Expr.eq_of_singleStep? {e : Expr} {axis : Axis} {test : NodeTest}
    (h : e.singleStep? = some (axis, test)) : e = .path .context [.mk axis test []] := by
  unfold singleStep? at h
  split at h
  case h_1 =>
    cases h
    rfl
  case h_2 => cases h

theorem parse_descendant_text :
    parse "descendant::text()".toList = .ok (.path .context [.mk .descendant .text []]) := by
  have hread : (parse "descendant::text()".toList).map Expr.singleStep? =
      .ok (some (.descendant, .text)) := by decide +kernel
  obtain ⟨e, hparse, hstep⟩ := Attempt.map_eq_ok.1 hread
  rw [hparse, Expr.eq_of_singleStep? hstep]

/-- The query finds the text nodes among the descendants, in document order. -/
theorem query_descendant_text (h : tree.has node = true) :
    query tree node "descendant::text()".toList =
      .ok (.nodes (candidates tree .descendant .text node)) :=
  query_eq_ok parse_descendant_text (eval_forward rfl h .text)

/-- The string value of an element or a document is what the text nodes below it say, in document
order, where nothing stands below texts and comments; and it is what its children say, comments left
out. -/
theorem valueAt_eq_texts (hbare : tree.HasBareTexts)
    (h : tree.kind? node = some .element ∨ tree.kind? node = some .document) :
    ∃ texts, query tree node "descendant::text()".toList = .ok (.nodes texts) ∧
      InDocumentOrder texts ∧
      (∀ other, other ∈ texts ↔ tree.kind? other = some .text ∧ node ∈ other.ancestors) ∧
      tree.valueAt node = texts.flatMap tree.valueAt ∧
      tree.valueAt node = ((tree.childrenOf node).filter
        fun child => tree.kind? child ≠ some .comment).flatMap tree.valueAt := by
  have hhas : tree.has node = true := h.elim Tree.has_of_kind? Tree.has_of_kind?
  refine ⟨_, query_descendant_text hhas, ?_, ?_, ?_, Tree.valueAt_children h⟩
  · exact ((Tree.inDocumentOrder_descendantsOf tree node).sublist
      (List.sublist_cons_self _ _)).sublist List.filter_sublist
  · intro other
    rw [candidates, List.mem_filter, Axis.nodes, Tree.mem_descendantsOf_iff_above,
      Address.above_iff, NodeTest.holds, decide_eq_true_eq]
    constructor
    · rintro ⟨⟨-, habove, -⟩, htext⟩
      exact ⟨htext, habove⟩
    · rintro ⟨htext, habove⟩
      exact ⟨⟨Tree.has_of_kind? htext, habove, by simp [htext]⟩, htext⟩
  · obtain ⟨subtree, hsubtree, hgathered⟩ := Tree.exists_gathered h
    rw [Tree.valueAt_of_subtree? hsubtree, hgathered, ← Tree.texts_descendantsOf hbare hsubtree]
    rfl

/-- A paragraph with texts at three depths, an attribute and a comment between them. -/
theorem valueAt_eq_texts_nested :
    let bold := ((Tree.element "b".toList).withAttribute "title".toList "t".toList).withChildren
      [.text "c".toList, (Tree.element "i".toList).withText "d".toList, .comment "y".toList]
    let tree := Tree.document.withChild ((Tree.element "p".toList).withChildren
      [.text "a".toList, .comment "x".toList, bold, .text "e".toList])
    tree.HasBareTexts ∧ tree.kind? [.child 0] = some .element ∧
      ∃ texts, query tree [.child 0] "descendant::text()".toList = .ok (.nodes texts) ∧
        texts.flatMap tree.valueAt = "acde".toList ∧
        ((tree.childrenOf [.child 0]).filter
          fun child => tree.kind? child ≠ some .comment).flatMap tree.valueAt = "acde".toList := by
  intro bold tree
  have hbare : tree.HasBareTexts := by decide +kernel
  have helement : tree.kind? [.child 0] = some .element := by decide +kernel
  obtain ⟨texts, hquery, -, -, hvalue, hchildren⟩ := valueAt_eq_texts hbare (.inl helement)
  have hstring : tree.valueAt [.child 0] = "acde".toList := by decide +kernel
  exact ⟨hbare, helement, texts, hquery, hvalue.symm.trans hstring, hchildren.symm.trans hstring⟩

end XPath

end TreeSelect
