import TreeSelect.Proofs.Attempt
import TreeSelect.Proofs.Tree.Numbering
import TreeSelect.XPath.Evaluation

/-!
# Nodes as values

The nodes that an expression evaluates to are nodes of the tree, each listed once, in document
order.

* `has_of_mem_axis`: no axis leaves the tree.
* `keepSelected_eq_ok` says at which foci a predicate is evaluated and what it leaves, and
  `exists_keepSelected` does so for a predicate that has a value at all of them.
* `applyPredicates_sublist` and `mem_collect` say what predicates and steps do to lists of nodes.
* `eval_nodes` is the induction over an expression.  It needs nothing about predicates, since these
  only leave out nodes.
* `Part` and `Sorts` follow an evaluation into everything that it evaluates, and `sorts_has` shows
  that only nodes of the tree are ever put in order.
-/

namespace TreeSelect.XPath

open Address (InDocumentOrder documentOrder sortByAncestors)
open Place (orderByAncestors?)

/-! ## Axes stay in the tree -/

theorem has_of_mem_childrenOf {tree : Tree} {node other : Address}
    (h : other ∈ tree.childrenOf node) : tree.has other = true := by
  obtain ⟨index, -, hhas⟩ := Tree.mem_childrenOf.1 h
  exact hhas

theorem has_of_mem_descendantsOf {tree : Tree} {node other : Address}
    (h : other ∈ tree.descendantsOf node) : tree.has other = true := by
  obtain ⟨rest, -, -, hsome⟩ := Tree.mem_descendantsOf.1 h
  obtain ⟨subtree, hsubtree⟩ := Option.isSome_iff_exists.1 hsome
  exact Tree.has_of_subtree? hsubtree

theorem has_of_mem_ancestors {tree : Tree} {node other : Address} (hnode : tree.has node = true)
    (h : other ∈ node.ancestors) : tree.has other = true := by
  simp only [Address.ancestors, List.mem_map, List.mem_reverse, List.mem_range] at h
  obtain ⟨count, -, rfl⟩ := h
  exact Tree.has_of_prefix hnode (List.take_prefix count node)

theorem has_of_mem_siblings {tree : Tree} {node other : Address}
    (h : other ∈ (siblings tree node).1) : tree.has other = true := by
  unfold siblings at h
  split at h
  · exact has_of_mem_childrenOf h
  · cases h

/-- Whatever its direction, an axis leads from a node of the tree to nodes of the tree. -/
theorem has_of_mem_axis {tree : Tree} {node other : Address} (hnode : tree.has node = true)
    {axis : Axis} (h : other ∈ axis.nodes tree node) : tree.has other = true := by
  cases axis with
  | child => exact has_of_mem_childrenOf h
  | descendant => exact has_of_mem_descendantsOf h
  | descendantOrSelf =>
    rcases List.mem_cons.1 h with rfl | h
    · exact hnode
    · exact has_of_mem_descendantsOf h
  | self =>
    rw [List.mem_singleton.1 h]
    exact hnode
  | parent =>
    simp only [Axis.nodes, Address.parent?, Option.mem_toList] at h
    split at h
    · cases h
    · cases h
      exact Tree.has_of_prefix hnode (List.dropLast_prefix node)
  | «attribute» =>
    obtain ⟨index, -, hhas⟩ := Tree.mem_attributesOf.1 h
    exact hhas
  | ancestor => exact has_of_mem_ancestors hnode h
  | ancestorOrSelf =>
    rcases List.mem_cons.1 h with rfl | h
    · exact hnode
    · exact has_of_mem_ancestors hnode h
  | followingSibling => exact has_of_mem_siblings (List.mem_of_mem_drop h)
  | precedingSibling => exact has_of_mem_siblings (List.mem_of_mem_take (List.mem_reverse.1 h))

theorem has_of_mem_candidates {tree : Tree} {axis : Axis} {test : NodeTest}
    {node other : Address} (hnode : tree.has node = true)
    (h : other ∈ candidates tree axis test node) : tree.has other = true :=
  has_of_mem_axis hnode (List.mem_filter.1 h).1

/-! ## Predicates and steps -/

/-- The foci at which a predicate is evaluated for nodes, the first of which is at `position` of
`size`. -/
def foci (size : Nat) : Nat → List Address → List Focus
  | _, [] => []
  | position, node :: rest => ⟨node, position, size⟩ :: foci size (position + 1) rest

theorem map_node_foci (size position : Nat) (nodes : List Address) :
    (foci size position nodes).map Focus.node = nodes := by
  induction nodes generalizing position with
  | nil => rfl
  | cons node rest ih => rw [foci, List.map_cons, ih]

/-- A node is looked at once for each of its places. -/
theorem mem_foci {size position : Nat} {nodes : List Address} {focus : Focus} :
    focus ∈ foci size position nodes ↔ ∃ index, nodes[index]? = some focus.node ∧
      focus.position = position + index ∧ focus.size = size := by
  induction nodes generalizing position with
  | nil => simp [foci]
  | cons node rest ih =>
    obtain ⟨other, place, count⟩ := focus
    rw [foci, List.mem_cons, ih]
    conv => rhs; rw [← Nat.or_exists_add_one]
    simp only [Focus.mk.injEq, List.getElem?_cons_zero, List.getElem?_cons_succ, Option.some.injEq,
      Nat.add_zero, Nat.add_assoc, Nat.add_comm 1, eq_comm]

theorem exists_mem_foci {size position : Nat} {nodes : List Address} {node : Address} :
    (∃ focus ∈ foci size position nodes, focus.node = node) ↔ node ∈ nodes := by
  rw [← List.mem_map, map_node_foci]

/-- Whether a condition selects the node of a focus, unless it has no value there. -/
def selection? (condition : Focus → Result Value) (focus : Focus) : Option Bool :=
  (condition focus).toOption.map (·.selects focus.position)

/-- A predicate succeeds if it has a value at all foci, and it leaves the nodes that it selects. -/
theorem keepSelected_eq_ok {condition : Focus → Result Value} {size position : Nat}
    {nodes kept : List Address} :
    keepSelected condition size position nodes = .ok kept ↔
      (∀ focus ∈ foci size position nodes, (selection? condition focus).isSome = true) ∧
        kept = ((foci size position nodes).filter (selection? condition · = some true)).map
          Focus.node := by
  induction nodes generalizing position kept with
  | nil =>
    constructor
    · intro h
      cases h
      exact ⟨by simp [foci], rfl⟩
    · rintro ⟨-, rfl⟩
      rfl
  | cons node rest ih =>
    rw [keepSelected, foci, List.forall_mem_cons, List.filter_cons]
    cases hvalue : condition ⟨node, position, size⟩ with
    | error error =>
      have hselection : selection? condition ⟨node, position, size⟩ = none := by
        rw [selection?, hvalue]
        rfl
      simp [hselection, bind, Except.bind]
    | ok value =>
      have hselection : selection? condition ⟨node, position, size⟩ =
          some (value.selects position) := by
        rw [selection?, hvalue]
        rfl
      rw [hselection]
      show (keepSelected condition size (position + 1) rest >>= fun others =>
        pure (if value.selects position then node :: others else others)) = .ok kept ↔ _
      rw [Attempt.bind_eq_ok]
      simp only [ih, Option.isSome_some, true_and, Option.some.injEq, decide_eq_true_eq]
      constructor
      · rintro ⟨_, ⟨hrest, rfl⟩, hkept⟩
        cases hkept
        refine ⟨hrest, ?_⟩
        split <;> rfl
      · rintro ⟨hrest, rfl⟩
        refine ⟨_, ⟨hrest, rfl⟩, ?_⟩
        split <;> rfl

/-- A predicate that tells at all foci whether something holds leaves the nodes for which it does.
-/
theorem exists_keepSelected {condition : Focus → Result Value} {holds : Focus → Prop}
    {size position : Nat} {nodes : List Address}
    (h : ∀ focus ∈ foci size position nodes, ∃ value, condition focus = .ok value ∧
      (value.selects focus.position = true ↔ holds focus)) :
    ∃ kept, keepSelected condition size position nodes = .ok kept ∧
      ∀ node, node ∈ kept ↔
        ∃ focus ∈ foci size position nodes, holds focus ∧ focus.node = node := by
  have hselection : ∀ focus ∈ foci size position nodes,
      (selection? condition focus).isSome = true ∧
        (selection? condition focus = some true ↔ holds focus) := by
    intro focus hfocus
    obtain ⟨value, hvalue, hholds⟩ := h focus hfocus
    have hsome : selection? condition focus = some (value.selects focus.position) := by
      rw [selection?, hvalue]
      rfl
    rw [hsome]
    exact ⟨rfl, by rw [Option.some.injEq, hholds]⟩
  refine ⟨_, keepSelected_eq_ok.2 ⟨fun focus hfocus => (hselection focus hfocus).1, rfl⟩, ?_⟩
  intro node
  simp only [List.mem_map, List.mem_filter, decide_eq_true_eq, and_assoc]
  refine exists_congr fun focus => and_congr_right fun hfocus => ?_
  rw [(hselection focus hfocus).2]

/-- A predicate leaves out nodes and does nothing else. -/
theorem keepSelected_sublist {condition : Focus → Result Value} {size position : Nat}
    {nodes kept : List Address} (h : keepSelected condition size position nodes = .ok kept) :
    kept.Sublist nodes := by
  obtain ⟨-, rfl⟩ := keepSelected_eq_ok.1 h
  have hsublist := (List.filter_sublist (p := fun focus => selection? condition focus = some true)
    (l := foci size position nodes)).map Focus.node
  rwa [map_node_foci] at hsublist

theorem applyPredicates_single {tree : Tree} {condition : Expr} {nodes kept : List Address} :
    applyPredicates tree [condition] nodes = .ok kept ↔
      keepSelected (fun focus => eval tree focus condition) nodes.length 1 nodes = .ok kept := by
  rw [applyPredicates, Attempt.bind_eq_ok]
  simp only [applyPredicates, Except.ok.injEq, exists_eq_right]

theorem applyPredicates_sublist {tree : Tree} {conditions : List Expr} {nodes kept : List Address}
    (h : applyPredicates tree conditions nodes = .ok kept) : kept.Sublist nodes := by
  induction conditions generalizing nodes with
  | nil =>
    rw [applyPredicates] at h
    cases h
    exact List.Sublist.refl _
  | cons condition conditions ih =>
    rw [applyPredicates] at h
    obtain ⟨first, hfirst, h⟩ := Attempt.bind_eq_ok.1 h
    exact (ih h).trans (keepSelected_sublist hfirst)

/-- The nodes of a step come from the nodes that the step starts from. -/
theorem mem_collect {next : Address → Result (List Address)} {nodes found : List Address}
    (h : collect next nodes = .ok found) {other : Address} (hother : other ∈ found) :
    ∃ node ∈ nodes, ∃ list, next node = .ok list ∧ other ∈ list := by
  induction nodes generalizing found with
  | nil =>
    cases h
    cases hother
  | cons node rest ih =>
    rw [collect] at h
    obtain ⟨list, hlist, h⟩ := Attempt.bind_eq_ok.1 h
    obtain ⟨others, hothers, h⟩ := Attempt.bind_eq_ok.1 h
    cases h
    rcases List.mem_append.1 hother with hmem | hmem
    · exact ⟨node, List.mem_cons_self, list, hlist, hmem⟩
    · obtain ⟨start, hstart, rest⟩ := ih hothers hmem
      exact ⟨start, List.mem_cons_of_mem _ hstart, rest⟩

/-- A step from nodes of the tree leads to nodes of the tree. -/
theorem has_of_mem_step {tree : Tree} {axis : Axis} {test : NodeTest} {conditions : List Expr}
    {nodes found : List Address} (hnodes : ∀ node ∈ nodes, tree.has node = true)
    (h : collect (fun node => applyPredicates tree conditions (candidates tree axis test node))
      nodes = .ok found) : ∀ other ∈ found, tree.has other = true := by
  intro other hother
  obtain ⟨node, hnode, list, hlist, hmem⟩ := mem_collect h hother
  exact has_of_mem_candidates (hnodes node hnode) ((applyPredicates_sublist hlist).mem hmem)

/-- Steps from nodes of the tree in document order lead to such nodes. -/
theorem walk_nodes {tree : Tree} {steps : List Step} {nodes found : List Address}
    (hnodes : (∀ node ∈ nodes, tree.has node = true) ∧ InDocumentOrder nodes)
    (h : walk tree steps nodes = .ok found) :
    (∀ node ∈ found, tree.has node = true) ∧ InDocumentOrder found := by
  induction steps generalizing nodes with
  | nil =>
    rw [walk] at h
    cases h
    exact hnodes
  | cons step steps ih =>
    obtain ⟨axis, test, conditions⟩ := step
    rw [walk] at h
    obtain ⟨reached, hreached, h⟩ := Attempt.bind_eq_ok.1 h
    refine ih ⟨?_, Address.inDocumentOrder_documentOrder reached⟩ h
    intro node hnode
    exact has_of_mem_step hnodes.1 hreached node (Address.mem_documentOrder.1 hnode)

/-! ## Expressions -/

theorem nodesFor_eq_ok {use : NodeUse} {value : Value} {nodes : List Address} :
    value.nodesFor use = .ok nodes ↔ value = .nodes nodes := by
  cases value <;> simp [Value.nodesFor]

/-- The nodes of several branches are those of the first one and then those of the others. -/
theorem unionNodes_cons_eq_ok {tree : Tree} {focus : Focus} {branch : Expr} {others : List Expr}
    {nodes : List Address} : unionNodes tree focus (branch :: others) = .ok nodes ↔
      ∃ found rest, eval tree focus branch = .ok (.nodes found) ∧
        unionNodes tree focus others = .ok rest ∧ nodes = found ++ rest := by
  rw [unionNodes]
  constructor
  · intro h
    obtain ⟨value, hvalue, h⟩ := Attempt.bind_eq_ok.1 h
    obtain ⟨found, hfound, h⟩ := Attempt.bind_eq_ok.1 h
    obtain ⟨rest, hrest, h⟩ := Attempt.bind_eq_ok.1 h
    cases h
    rw [nodesFor_eq_ok.1 hfound] at hvalue
    exact ⟨found, rest, hvalue, hrest, rfl⟩
  · rintro ⟨found, rest, hfound, hrest, rfl⟩
    rw [hfound, hrest]
    rfl

/-- Functions give scalars. -/
theorem value_eq_ok {tree : Tree} {focus : Focus} {arguments : List (Result Value)}
    {function : Function} {value : Value}
    (h : function.value tree focus arguments = .ok value) : ∃ scalar, value = .scalar scalar := by
  cases function with
  | position | last | true | false =>
    cases h
    exact ⟨_, rfl⟩
  | contains | startsWith | concat | normalizeSpace | string | stringLength | not | name
  | localName =>
    obtain ⟨_, -, h⟩ := Attempt.bind_eq_ok.1 h
    cases h
    exact ⟨_, rfl⟩
  | count =>
    obtain ⟨_, -, h⟩ := Attempt.bind_eq_ok.1 h
    obtain ⟨_, -, h⟩ := Attempt.bind_eq_ok.1 h
    cases h
    exact ⟨_, rfl⟩
  | number =>
    cases arguments with
    | nil =>
      cases h
      exact ⟨_, rfl⟩
    | cons first others =>
      obtain ⟨_, -, rfl⟩ := Attempt.map_eq_ok.1 h
      exact ⟨_, rfl⟩

theorem callFunction_eq_ok {tree : Tree} {focus : Focus} {name : Text}
    {arguments : List (Result Value)} {value : Value}
    (h : callFunction tree focus name arguments = .ok value) : ∃ scalar, value = .scalar scalar := by
  unfold callFunction at h
  split at h
  · cases h
  · split at h
    · exact value_eq_ok h
    · cases h

/-- Operators give scalars. -/
theorem eval_binary_eq_ok {tree : Tree} {focus : Focus} {operator : Operator} {left right : Expr}
    {value : Value} (h : eval tree focus (.binary operator left right) = .ok value) :
    ∃ scalar, value = .scalar scalar := by
  rw [eval] at h
  obtain ⟨a, -, h⟩ := Attempt.bind_eq_ok.1 h
  split at h
  case h_1 =>
    split at h
    · cases h
      exact ⟨_, rfl⟩
    · obtain ⟨_, -, h⟩ := Attempt.bind_eq_ok.1 h
      cases h
      exact ⟨_, rfl⟩
  case h_2 =>
    split at h
    · obtain ⟨_, -, h⟩ := Attempt.bind_eq_ok.1 h
      cases h
      exact ⟨_, rfl⟩
    · cases h
      exact ⟨_, rfl⟩
  case h_3 =>
    obtain ⟨_, -, h⟩ := Attempt.bind_eq_ok.1 h
    split at h <;> cases h <;> exact ⟨_, rfl⟩

mutual

theorem eval_nodes {tree : Tree} {focus : Focus} (hfocus : tree.has focus.node = true)
    (expr : Expr) {nodes : List Address} (h : eval tree focus expr = .ok (.nodes nodes)) :
    (∀ node ∈ nodes, tree.has node = true) ∧ InDocumentOrder nodes := by
  match expr with
  | .number _ => rw [eval] at h; cases h
  | .literal _ => rw [eval] at h; cases h
  | .path start steps =>
    rw [eval] at h
    obtain ⟨first, hfirst, h⟩ := Attempt.bind_eq_ok.1 h
    obtain ⟨found, hfound, h⟩ := Attempt.bind_eq_ok.1 h
    cases h
    exact walk_nodes (startNodes_nodes hfocus start hfirst) hfound
  | .filter primary conditions =>
    rw [eval] at h
    obtain ⟨value, hvalue, h⟩ := Attempt.bind_eq_ok.1 h
    obtain ⟨found, hfound, h⟩ := Attempt.bind_eq_ok.1 h
    obtain ⟨kept, hkept, h⟩ := Attempt.bind_eq_ok.1 h
    cases h
    rw [nodesFor_eq_ok.1 hfound] at hvalue
    have hsublist := applyPredicates_sublist hkept
    refine ⟨?_, (Address.inDocumentOrder_documentOrder found).sublist hsublist⟩
    intro node hnode
    exact (eval_nodes hfocus primary hvalue).1 node
      (Address.mem_documentOrder.1 (hsublist.mem hnode))
  | .call name arguments =>
    rw [eval] at h
    obtain ⟨scalar, hscalar⟩ := callFunction_eq_ok h
    cases hscalar
  | .binary operator left right =>
    obtain ⟨scalar, hscalar⟩ := eval_binary_eq_ok h
    cases hscalar
  | .negate operand =>
    rw [eval] at h
    obtain ⟨value, -, h⟩ := Attempt.bind_eq_ok.1 h
    cases h
  | .union branches =>
    rw [eval] at h
    obtain ⟨found, hfound, h⟩ := Attempt.bind_eq_ok.1 h
    cases h
    refine ⟨?_, Address.inDocumentOrder_documentOrder found⟩
    intro node hnode
    exact unionNodes_nodes hfocus branches hfound node (Address.mem_documentOrder.1 hnode)

theorem startNodes_nodes {tree : Tree} {focus : Focus} (hfocus : tree.has focus.node = true)
    (start : Start) {nodes : List Address} (h : startNodes tree focus start = .ok nodes) :
    (∀ node ∈ nodes, tree.has node = true) ∧ InDocumentOrder nodes := by
  match start with
  | .root =>
    rw [startNodes] at h
    cases h
    refine ⟨?_, List.pairwise_singleton _ _⟩
    intro node hnode
    rw [List.mem_singleton.1 hnode]
    exact Tree.has_nil tree
  | .context =>
    rw [startNodes] at h
    cases h
    refine ⟨?_, List.pairwise_singleton _ _⟩
    intro node hnode
    rw [List.mem_singleton.1 hnode]
    exact hfocus
  | .expr inner =>
    rw [startNodes] at h
    obtain ⟨value, hvalue, h⟩ := Attempt.bind_eq_ok.1 h
    obtain ⟨found, hfound, h⟩ := Attempt.bind_eq_ok.1 h
    cases h
    rw [nodesFor_eq_ok.1 hfound] at hvalue
    refine ⟨?_, Address.inDocumentOrder_documentOrder found⟩
    intro node hnode
    exact (eval_nodes hfocus inner hvalue).1 node (Address.mem_documentOrder.1 hnode)

theorem unionNodes_nodes {tree : Tree} {focus : Focus} (hfocus : tree.has focus.node = true)
    (branches : List Expr) {nodes : List Address}
    (h : unionNodes tree focus branches = .ok nodes) : ∀ node ∈ nodes, tree.has node = true := by
  match branches with
  | [] =>
    rw [unionNodes] at h
    cases h
    intro node hnode
    cases hnode
  | branch :: others =>
    obtain ⟨found, rest, hvalue, hrest, rfl⟩ := unionNodes_cons_eq_ok.1 h
    intro node hnode
    rcases List.mem_append.1 hnode with hnode | hnode
    · exact (eval_nodes hfocus branch hvalue).1 node hnode
    · exact unionNodes_nodes hfocus others hrest node hnode

end

/-! ## All lists that are put in order -/

/-- `Part tree focus expr inner part`: to evaluate `expr` at `focus`, `part` may have to be
evaluated at `inner`.  A predicate is a part at each node that is left when its turn comes. -/
inductive Part (tree : Tree) : Focus → Expr → Focus → Expr → Prop
  | start {focus base steps} : Part tree focus (.path (.expr base) steps) focus base
  | step {focus start before axis test conditions condition others after first nodes node kept
        index selected}
      (hfirst : startNodes tree focus start = .ok first)
      (hnodes : walk tree before first = .ok nodes) (hnode : node ∈ nodes)
      (hkept : applyPredicates tree conditions (candidates tree axis test node) = .ok kept)
      (hselected : kept[index]? = some selected) :
      Part tree focus
        (.path start (before ++ .mk axis test (conditions ++ condition :: others) :: after))
        ⟨selected, index + 1, kept.length⟩ condition
  | primary {focus primary conditions} : Part tree focus (.filter primary conditions) focus primary
  | filter {focus primary conditions condition others nodes kept index selected}
      (hnodes : eval tree focus primary = .ok (.nodes nodes))
      (hkept : applyPredicates tree conditions (Address.documentOrder nodes) = .ok kept)
      (hselected : kept[index]? = some selected) :
      Part tree focus (.filter primary (conditions ++ condition :: others))
        ⟨selected, index + 1, kept.length⟩ condition
  | argument {focus name arguments argument} (hargument : argument ∈ arguments) :
      Part tree focus (.call name arguments) focus argument
  | left {focus operator left right} : Part tree focus (.binary operator left right) focus left
  | right {focus operator left right} : Part tree focus (.binary operator left right) focus right
  | operand {focus operand} : Part tree focus (.negate operand) focus operand
  | branch {focus branches branch} (hbranch : branch ∈ branches) :
      Part tree focus (.union branches) focus branch

/-- `Sorts tree focus expr nodes`: while `expr` is evaluated at `focus`, the list `nodes` may be put
in document order, for the expression itself or for one of its parts. -/
inductive Sorts (tree : Tree) : Focus → Expr → List Address → Prop
  | start {focus base steps nodes} (hnodes : eval tree focus base = .ok (.nodes nodes)) :
      Sorts tree focus (.path (.expr base) steps) nodes
  | step {focus start before axis test conditions after first nodes found}
      (hfirst : startNodes tree focus start = .ok first)
      (hnodes : walk tree before first = .ok nodes)
      (hfound : collect
        (fun node => applyPredicates tree conditions (candidates tree axis test node)) nodes =
          .ok found) :
      Sorts tree focus (.path start (before ++ .mk axis test conditions :: after)) found
  | filter {focus primary conditions nodes} (hnodes : eval tree focus primary = .ok (.nodes nodes)) :
      Sorts tree focus (.filter primary conditions) nodes
  | union {focus branches nodes} (hnodes : unionNodes tree focus branches = .ok nodes) :
      Sorts tree focus (.union branches) nodes
  | part {focus expr inner part nodes} (hpart : Part tree focus expr inner part)
      (hnodes : Sorts tree inner part nodes) : Sorts tree focus expr nodes

/-- Parts are evaluated at nodes of the tree. -/
theorem has_of_part {tree : Tree} {focus inner : Focus} {expr part : Expr}
    (h : Part tree focus expr inner part) (hfocus : tree.has focus.node = true) :
    tree.has inner.node = true := by
  cases h with
  | start | primary | argument | left | right | operand | branch => exact hfocus
  | step hfirst hnodes hnode hkept hselected =>
    have hhas := (walk_nodes (startNodes_nodes hfocus _ hfirst) hnodes).1 _ hnode
    have hmem := (applyPredicates_sublist hkept).mem (List.mem_of_getElem? hselected)
    exact has_of_mem_candidates hhas hmem
  | filter hnodes hkept hselected =>
    have hmem := (applyPredicates_sublist hkept).mem (List.mem_of_getElem? hselected)
    exact (eval_nodes hfocus _ hnodes).1 _ (Address.mem_documentOrder.1 hmem)

/-- Only nodes of the tree are put in order. -/
theorem sorts_has {tree : Tree} {focus : Focus} {expr : Expr} {nodes : List Address}
    (h : Sorts tree focus expr nodes) (hfocus : tree.has focus.node = true) :
    ∀ node ∈ nodes, tree.has node = true := by
  induction h with
  | start hnodes => exact (eval_nodes hfocus _ hnodes).1
  | step hfirst hnodes hfound =>
    exact has_of_mem_step (walk_nodes (startNodes_nodes hfocus _ hfirst) hnodes).1 hfound
  | filter hnodes => exact (eval_nodes hfocus _ hnodes).1
  | union hnodes => exact unionNodes_nodes hfocus _ hnodes
  | part hpart _ ih => exact ih (has_of_part hpart hfocus)

/-- Evaluated at a node of a tree, an expression that gives nodes gives nodes of the tree, each once
and in document order, which is the one such listing of them: by their ancestors each comes before
all that follow it.  Whatever is put in order on the way is sorted by ancestors, and only nodes of
the tree are compared, which always have an order and of which a node only equals itself. -/
theorem eval_inDocumentOrder {tree : Tree} {focus : Focus} (hfocus : tree.has focus.node = true)
    (expr : Expr) :
    (∀ nodes, eval tree focus expr = .ok (.nodes nodes) →
      (∀ node ∈ nodes, tree.has node = true) ∧ nodes.Nodup ∧ InDocumentOrder nodes ∧
        (∀ others, InDocumentOrder others → (∀ node, node ∈ others ↔ node ∈ nodes) →
          others = nodes) ∧
        ∀ trees number, trees number = tree → nodes.Pairwise fun a b =>
          orderByAncestors? trees ⟨number, a⟩ ⟨number, b⟩ = some .lt) ∧
      ∀ nodes, Sorts tree focus expr nodes →
        (∀ node ∈ nodes, tree.has node = true) ∧
          ∀ trees number, trees number = tree →
            documentOrder nodes = sortByAncestors trees number nodes ∧
              ∀ a ∈ nodes, ∀ b ∈ nodes, ∃ order,
                orderByAncestors? trees ⟨number, a⟩ ⟨number, b⟩ = some order ∧
                  (order = .eq ↔ a = b) := by
  constructor
  · intro nodes h
    obtain ⟨hhas, horder⟩ := eval_nodes hfocus expr h
    refine ⟨hhas, horder.nodup, horder, ?_, ?_⟩
    · intro others hothers hmem
      exact horder.eq_of_mem_iff hothers hmem
    · rintro trees number rfl
      exact (Address.inDocumentOrder_iff_orderByAncestors? hhas).1 horder
  · intro nodes h
    have hhas := sorts_has h hfocus
    refine ⟨hhas, ?_⟩
    rintro trees number rfl
    refine ⟨Address.documentOrder_eq_sortByAncestors hhas, fun a ha b hb => ⟨a.compare b, ?_, ?_⟩⟩
    · exact Place.orderByAncestors?_of_has (hhas a ha) (hhas b hb)
    · exact Address.compare_eq_iff

/-- A reverse axis and a union, started below an element with two children. -/
theorem eval_inDocumentOrder_union :
    let tree := Tree.document.withChild
      ((Tree.element "ul".toList).withChildren [.element "li".toList, .element "li".toList])
    let focus : Focus := ⟨[.child 0, .child 1], 1, 1⟩
    let branches := [
      Expr.path .context [],
      .path .context [.mk .precedingSibling .any []],
      .path .context [.mk .parent .node []]]
    let found := [[.child 0, .child 1], [.child 0, .child 0], [.child 0]]
    let listing := [[.child 0], [.child 0, .child 0], [.child 0, .child 1]]
    tree.has focus.node = true ∧
      eval tree focus (.union branches) = .ok (.nodes listing) ∧
      (∀ node ∈ listing, tree.has node = true) ∧ InDocumentOrder listing ∧
      (listing.Pairwise fun a b =>
        orderByAncestors? (fun _ => tree) ⟨0, a⟩ ⟨0, b⟩ = some .lt) ∧
      Sorts tree focus (.union branches) found ∧
      sortByAncestors (fun _ => tree) 0 found = listing := by
  intro tree focus branches found listing
  have hhas : tree.has focus.node = true := by decide
  have hbefore : candidates tree .precedingSibling .any [.child 0, .child 1] =
      [[.child 0, .child 0]] := by decide
  have habove : candidates tree .parent .node [.child 0, .child 1] = [[.child 0]] := by decide
  have horder : documentOrder found = listing := by
    apply Address.documentOrder_eq (by simp [listing, InDocumentOrder]; decide)
    intro node
    simp only [found, listing, List.mem_cons, List.not_mem_nil, or_false]
    grind
  have hunion : unionNodes tree focus branches = .ok found := by
    simp only [branches, focus, found, unionNodes, eval, startNodes, walk, collect,
      applyPredicates, hbefore, habove, Address.documentOrder_singleton, Value.nodesFor, bind,
      Except.bind, pure, Except.pure, List.append_nil, List.singleton_append]
  have heval : eval tree focus (.union branches) = .ok (.nodes listing) := by
    rw [eval, hunion, ← horder]
    rfl
  obtain ⟨hresult, hsorted⟩ := eval_inDocumentOrder hhas (.union branches)
  obtain ⟨hnodes, -, hlisting, -, hancestors⟩ := hresult listing heval
  obtain ⟨hsort, -⟩ := (hsorted found (.union hunion)).2 (fun _ => tree) 0 rfl
  exact ⟨hhas, heval, hnodes, hlisting, hancestors _ 0 rfl, .union hunion,
    hsort.symm.trans horder⟩

end TreeSelect.XPath
