import TreeSelect.Proofs.XPath.Merging
import TreeSelect.Proofs.XPath.StringValues

/-!
# Two slashes and descendants

Between two steps `//` stands for a step of its own, `descendant-or-self::node()`, so that `//name`
goes to a node and all nodes below it and asks for the children of each of them.  These are the
descendants of the node, which the axis `descendant` lists in one go.

* `exists_parent_mem_iff`: the children of what `//` leads to are the nodes below its start.
* `collect_verdicts?`: predicates without positions look at the nodes of a step one by one, however
  the nodes come in lists.
* `walk_descendants`: the two ways lead to the same nodes.
* `eval_descendants`: so do paths that go one way or the other, whatever stands before and behind.

Predicates that ask for positions tell the two ways apart: `//p[1]` is about the first child of each
node, and `descendant::p[1]` about the first descendant.
-/

namespace TreeSelect.XPath

variable {tree : Tree} {node : Address}

/-! ## Parents among descendants -/

/-- The nodes that `//` leads to: those from which it starts, and all nodes below them. -/
theorem walk_descendantOrSelf (tree : Tree) (nodes : List Address) :
    ∃ found, walk tree [.descendantOrSelf] nodes = .ok found ∧
      ∀ other,
        other ∈ found ↔ ∃ start ∈ nodes, other = start ∨ other ∈ tree.descendantsOf start := by
  refine walk_step fun start _ => ⟨candidates tree .descendantOrSelf .node start, ?_, ?_⟩
  · rw [applyPredicates]
  · intro other
    rw [candidates, List.mem_filter]
    show other ∈ start :: tree.descendantsOf start ∧ true = true ↔ _
    rw [List.mem_cons, and_iff_left rfl]

/-- Nodes with a parent among the nodes that `//` leads to are the nodes below its start. -/
theorem exists_parent_mem_iff {nodes found : List Address}
    (hfound : ∀ other,
      other ∈ found ↔ ∃ start ∈ nodes, other = start ∨ other ∈ tree.descendantsOf start)
    (hhas : tree.has node = true) :
    (∃ above ∈ found, node.parent? = some above) ↔ ∃ start ∈ nodes, start ∈ node.ancestors := by
  constructor
  · intro h
    obtain ⟨above, habove, hparent⟩ := h
    obtain ⟨start, hstart, hother⟩ := (hfound above).1 habove
    exact ⟨start, hstart, (Tree.exists_parent_iff hhas).1 ⟨above, hother, hparent⟩⟩
  · intro h
    obtain ⟨start, hstart, hancestor⟩ := h
    obtain ⟨above, hother, hparent⟩ := (Tree.exists_parent_iff hhas).2 hancestor
    exact ⟨above, (hfound above).2 ⟨start, hstart, hother⟩, hparent⟩

/-- Both axes are about elements, so that a test lets the same nodes pass. -/
theorem holds_descendant (test : NodeTest) :
    test.holds tree .descendant node = test.holds tree .child node := by
  cases test <;> rfl

/-- The children of what `//` leads to that pass a test are the descendants of its start that do. -/
theorem mem_flatMap_child_iff {nodes found : List Address}
    (hfound : ∀ other,
      other ∈ found ↔ ∃ start ∈ nodes, other = start ∨ other ∈ tree.descendantsOf start)
    (test : NodeTest) :
    node ∈ found.flatMap (candidates tree .child test) ↔
      node ∈ nodes.flatMap (candidates tree .descendant test) := by
  simp only [List.mem_flatMap, candidates, List.mem_filter, Axis.nodes, holds_descendant,
    Tree.mem_childrenOf_iff_parent, Tree.mem_descendantsOf_iff_above, Address.above_iff]
  constructor
  · rintro ⟨above, habove, ⟨hhas, hparent, hkind⟩, htest⟩
    obtain ⟨start, hstart, hbelow⟩ :=
      (exists_parent_mem_iff hfound hhas).1 ⟨above, habove, hparent⟩
    exact ⟨start, hstart, ⟨hhas, hbelow, hkind⟩, htest⟩
  · rintro ⟨start, hstart, ⟨hhas, hbelow, hkind⟩, htest⟩
    obtain ⟨above, habove, hparent⟩ :=
      (exists_parent_mem_iff hfound hhas).2 ⟨start, hstart, hbelow⟩
    exact ⟨above, habove, ⟨hhas, hparent, hkind⟩, htest⟩

/-! ## Steps node by node -/

section Steps

variable {conditions : List Expr}
  (hconditions : ∀ condition ∈ conditions,
    condition.isPositionFree = true ∧ condition.isNumeric = false)

include hconditions

/-- Predicates without positions see the same nodes one list after another as in one list. -/
theorem collect_verdicts? {nodesOf : Address → List Address} {nodes found : List Address} :
    collect (fun node => applyPredicates tree conditions (nodesOf node)) nodes = .ok found ↔
      (∀ other ∈ nodes.flatMap nodesOf, (verdicts? tree conditions other).isSome = true) ∧
        found = (nodes.flatMap nodesOf).filter (verdicts? tree conditions · = some true) := by
  induction nodes generalizing found with
  | nil =>
    constructor
    · intro h
      cases h
      exact ⟨by simp, rfl⟩
    · rintro ⟨-, rfl⟩
      rfl
  | cons node rest ih =>
    rw [collect, Attempt.bind_eq_ok, List.flatMap_cons, List.forall_mem_append, List.filter_append]
    constructor
    · rintro ⟨list, hlist, h⟩
      obtain ⟨others, hothers, h⟩ := Attempt.bind_eq_ok.1 h
      cases h
      obtain ⟨hverdicts, rfl⟩ := (applyPredicates_verdicts? hconditions).1 hlist
      obtain ⟨hlater, rfl⟩ := ih.1 hothers
      exact ⟨⟨hverdicts, hlater⟩, rfl⟩
    · rintro ⟨⟨hverdicts, hlater⟩, rfl⟩
      refine ⟨_, (applyPredicates_verdicts? hconditions).2 ⟨hverdicts, rfl⟩, ?_⟩
      exact Attempt.bind_eq_ok.2 ⟨_, ih.2 ⟨hlater, rfl⟩, rfl⟩

/-- A step with such predicates leads to nodes that depend on which nodes the axis and the test give,
and not on where they are given from. -/
theorem walk_verdicts? {axis : Axis} {test : NodeTest} {nodes found : List Address} :
    walk tree [.mk axis test conditions] nodes = .ok found ↔
      (∀ other ∈ nodes.flatMap (candidates tree axis test),
          (verdicts? tree conditions other).isSome = true) ∧
        found = Address.documentOrder ((nodes.flatMap (candidates tree axis test)).filter
          (verdicts? tree conditions · = some true)) := by
  rw [walk, Attempt.bind_eq_ok]
  simp only [collect_verdicts? hconditions, walk, Except.ok.injEq, and_assoc, exists_and_left,
    exists_eq_left, eq_comm]

/-- The children of what `//` leads to and the descendants are the same nodes. -/
theorem walk_descendants {test : NodeTest} {nodes found : List Address} :
    walk tree [.descendantOrSelf, .mk .child test conditions] nodes = .ok found ↔
      walk tree [.mk .descendant test conditions] nodes = .ok found := by
  obtain ⟨between, hbetween, hmem⟩ := walk_descendantOrSelf tree nodes
  have hsplit := walk_append tree [.descendantOrSelf] [.mk .child test conditions] nodes
  rw [hbetween] at hsplit
  have hsame : ∀ other, other ∈ between.flatMap (candidates tree .child test) ↔
      other ∈ nodes.flatMap (candidates tree .descendant test) :=
    fun other => mem_flatMap_child_iff hmem test
  -- the nodes have other places on the two ways, which no verdict looks at
  have hkept : ∀ other,
      other ∈ (between.flatMap (candidates tree .child test)).filter
          (verdicts? tree conditions · = some true) ↔
        other ∈ (nodes.flatMap (candidates tree .descendant test)).filter
          (verdicts? tree conditions · = some true) := by
    intro other
    rw [List.mem_filter, List.mem_filter, hsame]
  show walk tree ([.descendantOrSelf] ++ [.mk .child test conditions]) nodes = .ok found ↔ _
  rw [hsplit]
  show walk tree [.mk .child test conditions] between = .ok found ↔ _
  rw [walk_verdicts? hconditions, walk_verdicts? hconditions, Address.documentOrder_congr hkept]
  simp only [hsame]

end Steps

/-- Without predicates the two ways cannot fail. -/
theorem walk_descendants_bare (tree : Tree) (test : NodeTest) (nodes : List Address) :
    walk tree [.descendantOrSelf, .mk .child test []] nodes =
      walk tree [.mk .descendant test []] nodes := by
  have hnone : ∀ condition ∈ ([] : List Expr),
      condition.isPositionFree = true ∧ condition.isNumeric = false := by simp
  have hfound : walk tree [.mk .descendant test []] nodes = .ok _ :=
    (walk_verdicts? hnone).2 ⟨fun other _ => by rw [verdicts?_nil]; rfl, rfl⟩
  rw [hfound]
  exact (walk_descendants hnone).2 hfound

/-! ## Paths -/

theorem walk_append_eq_ok {before after : List Step} {nodes found : List Address} :
    walk tree (before ++ after) nodes = .ok found ↔
      ∃ between, walk tree before nodes = .ok between ∧ walk tree after between = .ok found := by
  rw [walk_append]
  exact Attempt.bind_eq_ok

/-- Steps that lead to the same nodes may stand for one another in any path. -/
theorem eval_path_congr {steps others : List Step}
    (h : ∀ nodes found, walk tree steps nodes = .ok found ↔ walk tree others nodes = .ok found)
    {focus : Focus} {start : Start} {before after : List Step} {value : Value} :
    eval tree focus (.path start (before ++ steps ++ after)) = .ok value ↔
      eval tree focus (.path start (before ++ others ++ after)) = .ok value := by
  rw [eval, eval]
  simp only [Attempt.bind_eq_ok, walk_append_eq_ok, h]

/-- From a node of a tree `descendant-or-self::node()/child::` and `descendant::` without a predicate
give the same list, the descendants that pass the test, and either may stand for the other at any
place of a path.  With predicates that ask for no position and have no number for their value the two
give the same list too, or both fail. -/
theorem eval_descendants (tree : Tree) (focus : Focus) (test : NodeTest) :
    let slashes (conditions : List Expr) : List Step :=
      [.descendantOrSelf, .mk .child test conditions]
    let below (conditions : List Expr) : List Step := [.mk .descendant test conditions]
    let found := candidates tree .descendant test focus.node
    (tree.has focus.node = true →
      eval tree focus (.path .context (slashes [])) = .ok (.nodes found) ∧
        eval tree focus (.path .context (below [])) = .ok (.nodes found)) ∧
      (∀ start before after,
        eval tree focus (.path start (before ++ slashes [] ++ after)) =
          eval tree focus (.path start (before ++ below [] ++ after))) ∧
      ∀ conditions : List Expr,
        (∀ condition ∈ conditions,
          condition.isPositionFree = true ∧ condition.isNumeric = false) →
        ∀ start before after,
          (∃ value,
            eval tree focus (.path start (before ++ slashes conditions ++ after)) = .ok value ∧
              eval tree focus (.path start (before ++ below conditions ++ after)) = .ok value) ∨
          (∃ error,
            eval tree focus (.path start (before ++ slashes conditions ++ after)) =
              .error error) ∧
            ∃ error,
              eval tree focus (.path start (before ++ below conditions ++ after)) =
                .error error := by
  intro slashes below found
  have hbare : ∀ start before after,
      eval tree focus (.path start (before ++ slashes [] ++ after)) =
        eval tree focus (.path start (before ++ below [] ++ after)) := by
    intro start before after
    have hwalk : walk tree (slashes []) = walk tree (below []) :=
      funext (walk_descendants_bare tree test)
    rw [eval, eval]
    simp only [walk_append, hwalk]
  refine ⟨fun h => ?_, hbare, fun conditions hconditions start before after => ?_⟩
  · have hdescendants : eval tree focus (.path .context (below [])) = .ok (.nodes found) :=
      eval_forward rfl h test
    exact ⟨(hbare .context [] []).trans hdescendants, hdescendants⟩
  · apply Attempt.both_of_ok_iff
    intro value
    exact eval_path_congr fun _ _ => walk_descendants hconditions

/-- Three paragraphs, two of them in the first: all of them, and those with something in bold and
without attributes. -/
theorem eval_descendants_nested :
    let inner := (Tree.element "p".toList).withChild (.element "b".toList)
    let tree := Tree.document.withChild ((Tree.element "p".toList).withChildren
      [inner, .element "p".toList, .text "a".toList])
    let bold := Expr.path .context [.mk .child (.name "b".toList) []]
    let plain := Expr.call "not".toList [.path .context [.mk .attribute .any []]]
    let test := NodeTest.name "p".toList
    let inBold := [[.child 0, .child 0]]
    (∀ condition ∈ [bold, plain],
        condition.isPositionFree = true ∧ condition.isNumeric = false) ∧
      tree.has [] = true ∧
      eval tree ⟨[], 1, 1⟩ (.path .context [.descendantOrSelf, .mk .child test []]) =
        .ok (.nodes [[.child 0], [.child 0, .child 0], [.child 0, .child 1]]) ∧
      eval tree ⟨[], 1, 1⟩ (.path .context [.descendantOrSelf, .mk .child test [bold, plain]]) =
        .ok (.nodes inBold) ∧
      eval tree ⟨[], 1, 1⟩ (.path .context [.mk .descendant test [bold, plain]]) =
        .ok (.nodes inBold) := by
  intro inner tree bold plain test inBold
  have hplain : ∀ condition ∈ [bold, plain],
      condition.isPositionFree = true ∧ condition.isNumeric = false := by decide +kernel
  have hlist : candidates tree .descendant test [] =
      [[.child 0], [.child 0, .child 0], [.child 0, .child 1]] := by decide +kernel
  have hshort : eval tree ⟨[], 1, 1⟩ (.path .context [.mk .descendant test [bold, plain]]) =
      .ok (.nodes inBold) := by decide +kernel
  obtain ⟨hbare, -, hconditions⟩ := eval_descendants tree ⟨[], 1, 1⟩ test
  refine ⟨hplain, rfl, (hbare rfl).1.trans (by rw [hlist]), ?_, hshort⟩
  rcases hconditions _ hplain .context [] [] with ⟨value, hlong, hsame⟩ | ⟨-, error, hfails⟩
  · cases hshort.symm.trans hsame
    exact hlong
  · cases hshort.symm.trans hfails

end TreeSelect.XPath
