import TreeSelect.Proofs.XPath.NodeSets

/-!
# Conditions and steps as sets of nodes

`Tells` says that an expression has a value at a node and that, used as a predicate, it tells whether
a proposition holds.  Where every predicate tells something, a step selects a set of nodes.

* `applyPredicates_of_tells`: what predicates leave.
* `walk_step`: what a step leads to, from any nodes for which its predicates tell something.
* `walk_append`: steps one after another.
-/

namespace TreeSelect.XPath

variable {tree : Tree} {node : Address} {p q : Prop}

theorem evalEach_eq_map (tree : Tree) (focus : Focus) (exprs : List Expr) :
    evalEach tree focus exprs = exprs.map (eval tree focus) := by
  induction exprs with
  | nil =>
    rw [evalEach]
    rfl
  | cons expr exprs ih => rw [evalEach, ih, List.map_cons]

/-- A query whose expression has a value gives it. -/
theorem query_eq_ok {text : Text} {expr : Expr} {value : Value} (hparse : parse text = .ok expr)
    (heval : eval tree ⟨node, 1, 1⟩ expr = .ok value) : query tree node text = .ok value := by
  unfold query
  rw [hparse]
  show (eval tree ⟨node, 1, 1⟩ expr).mapError QueryError.evaluation = _
  rw [heval]
  rfl

/-- An `and` whose operands have values. -/
theorem eval_and {focus : Focus} {left right : Expr} {a b : Value}
    (hleft : eval tree focus left = .ok a) (hright : eval tree focus right = .ok b) :
    eval tree focus (.binary .and left right) =
      .ok (.scalar (.boolean (a.toBoolean && b.toBoolean))) := by
  rw [eval, hleft]
  cases htruth : a.toBoolean with
  | false => simp [htruth, bind, Except.bind, pure, Except.pure]
  | true => simp [htruth, hright, bind, Except.bind, pure, Except.pure]

/-! ## Conditions -/

/-- As a predicate at `node` the expression tells whether `p` holds, at whatever position the node
is.  A number would ask for a position instead. -/
def Tells (tree : Tree) (node : Address) (condition : Expr) (p : Prop) : Prop :=
  ∀ position size, ∃ value, eval tree ⟨node, position, size⟩ condition = .ok value ∧
    (value.toBoolean = true ↔ p) ∧ ∀ place, value.selects place = value.toBoolean

/-- An expression whose value is a truth value tells whether it is true. -/
theorem tells_of_boolean {condition : Expr} {truth : Bool} (htruth : truth = true ↔ p)
    (h : ∀ position size,
      eval tree ⟨node, position, size⟩ condition = .ok (.scalar (.boolean truth))) :
    Tells tree node condition p := by
  intro position size
  exact ⟨_, h position size, htruth, fun _ => rfl⟩

/-- A condition may be put in other words. -/
theorem Tells.congr {condition : Expr} (h : Tells tree node condition p) (hpq : p ↔ q) :
    Tells tree node condition q := by
  intro position size
  obtain ⟨value, hvalue, htruth, hselects⟩ := h position size
  exact ⟨value, hvalue, htruth.trans hpq, hselects⟩

/-- Both operands of an `and` have values, so that it tells whether both conditions hold. -/
theorem Tells.and {left right : Expr} (hleft : Tells tree node left p)
    (hright : Tells tree node right q) : Tells tree node (.binary .and left right) (p ∧ q) := by
  intro position size
  obtain ⟨a, ha, hp, -⟩ := hleft position size
  obtain ⟨b, hb, hq, -⟩ := hright position size
  refine ⟨_, eval_and ha hb, ?_, fun _ => rfl⟩
  show (a.toBoolean && b.toBoolean) = true ↔ p ∧ q
  rw [Bool.and_eq_true, hp, hq]

/-! ## Predicates -/

/-- Without a predicate all nodes are left, and with one those for which it holds. -/
theorem applyPredicates_of_tells {conditions : List Expr} {holds : Address → Prop}
    {nodes : List Address} (hnone : conditions = [] → ∀ node, holds node)
    (hsome : ∀ condition others, conditions = condition :: others → others = [] ∧
      ∀ node ∈ nodes, Tells tree node condition (holds node)) :
    ∃ kept, applyPredicates tree conditions nodes = .ok kept ∧
      ∀ node, node ∈ kept ↔ node ∈ nodes ∧ holds node := by
  cases conditions with
  | nil =>
    refine ⟨nodes, by rw [applyPredicates], fun node => ?_⟩
    constructor
    · intro hnode
      exact ⟨hnode, hnone rfl node⟩
    · intro hnode
      exact hnode.1
  | cons condition others =>
    obtain ⟨rfl, htells⟩ := hsome condition others rfl
    have hselects : ∀ focus ∈ foci nodes.length 1 nodes, ∃ value,
        eval tree focus condition = .ok value ∧
          (value.selects focus.position = true ↔ holds focus.node) := by
      intro focus hfocus
      obtain ⟨value, hvalue, htruth, hselects⟩ := htells focus.node
        (exists_mem_foci.1 ⟨focus, hfocus, rfl⟩) focus.position focus.size
      exact ⟨value, hvalue, by rw [hselects, htruth]⟩
    obtain ⟨kept, hkept, hmem⟩ := exists_keepSelected hselects
    refine ⟨kept, applyPredicates_single.2 hkept, fun node => ?_⟩
    rw [hmem, ← exists_mem_foci]
    constructor
    · rintro ⟨focus, hfocus, hholds, rfl⟩
      exact ⟨⟨focus, hfocus, rfl⟩, hholds⟩
    · rintro ⟨⟨focus, hfocus, rfl⟩, hholds⟩
      exact ⟨focus, hfocus, hholds, rfl⟩

/-! ## Steps -/

/-- Where each node leads to some nodes, all of them together lead to the nodes of each. -/
theorem collect_of_next {next : Address → Result (List Address)}
    {leads : Address → Address → Prop} {nodes : List Address}
    (h : ∀ node ∈ nodes, ∃ list, next node = .ok list ∧ ∀ other, other ∈ list ↔ leads node other) :
    ∃ found, collect next nodes = .ok found ∧
      ∀ other, other ∈ found ↔ ∃ node ∈ nodes, leads node other := by
  induction nodes with
  | nil => exact ⟨[], rfl, by simp⟩
  | cons first rest ih =>
    obtain ⟨others, hothers, hmem⟩ := ih fun node hnode => h node (List.mem_cons_of_mem first hnode)
    obtain ⟨list, hlist, hfirst⟩ := h first List.mem_cons_self
    refine ⟨list ++ others, ?_, ?_⟩
    · rw [collect, hlist, hothers]
      rfl
    · intro other
      rw [List.mem_append, hfirst, hmem]
      simp

/-- A step leads from several nodes to all nodes that it leads to from one of them. -/
theorem walk_step {axis : Axis} {test : NodeTest} {conditions : List Expr}
    {leads : Address → Address → Prop} {nodes : List Address}
    (h : ∀ node ∈ nodes, ∃ list,
      applyPredicates tree conditions (candidates tree axis test node) = .ok list ∧
        ∀ other, other ∈ list ↔ leads node other) :
    ∃ found, walk tree [.mk axis test conditions] nodes = .ok found ∧
      ∀ other, other ∈ found ↔ ∃ node ∈ nodes, leads node other := by
  obtain ⟨found, hfound, hmem⟩ := collect_of_next h
  refine ⟨Address.documentOrder found, ?_, ?_⟩
  · rw [walk, hfound]
    show walk tree [] _ = _
    rw [walk]
  · intro other
    rw [Address.mem_documentOrder, hmem]

theorem walk_append (tree : Tree) (before after : List Step) (nodes : List Address) :
    walk tree (before ++ after) nodes = (walk tree before nodes).bind (walk tree after) := by
  induction before generalizing nodes with
  | nil =>
    rw [walk]
    rfl
  | cons step before ih =>
    obtain ⟨axis, test, conditions⟩ := step
    rw [List.cons_append, walk, walk]
    cases collect (fun node => applyPredicates tree conditions (candidates tree axis test node))
        nodes with
    | error error => rfl
    | ok found => exact ih (Address.documentOrder found)

end TreeSelect.XPath
