import TreeSelect.Proofs.XPath.Conditions
import TreeSelect.Proofs.XPath.Focus

/-!
# Merging predicates

Two predicates one behind the other leave the nodes that one predicate with `and` between them
leaves, if neither of them asks for a position: neither by a call of `position` or `last` nor by a
number for its value.  Such a predicate has one verdict on a node, wherever the node stands among
others.

* `selects_of_not_isNumeric`: which expressions never have a number for their value.
* `keepSelected_verdict?`: when a predicate without positions succeeds, and what it leaves.
* `applyPredicates_verdicts?`: the same of several predicates, one behind the other.
* `applyPredicates_merge`: positions make no difference to such predicates, so that they can be
  merged.
-/

namespace TreeSelect.XPath

/-! ## Numeric expressions -/

/-- Whether an operator gives numbers. -/
def Operator.isArithmetic : Operator → Bool
  | .add | .sub | .div | .mod => true
  | _ => false

/-- Whether a function gives numbers. -/
def Function.isNumeric : Function → Bool
  | .position | .last | .count | .stringLength | .number => Bool.true
  | _ => Bool.false

/-- Whether the value of an expression is a number, if it has one. -/
def Expr.isNumeric : Expr → Bool
  | .number _ | .negate _ => true
  | .binary operator _ _ => operator.isArithmetic
  | .call name _ => (Function.ofName? name).any Function.isNumeric
  | _ => false

variable {tree : Tree} {focus : Focus} {condition : Expr} {value : Value}

theorem selects_of_call {function : Function} (h : function.isNumeric = false)
    {arguments : List (Result Value)} (hvalue : function.value tree focus arguments = .ok value)
    (place : Nat) : value.selects place = value.toBoolean := by
  cases function with
  | position | last | count | stringLength | number => cases h
  | true | false =>
    cases hvalue
    rfl
  | contains | startsWith | concat | normalizeSpace | string | not | name | localName =>
    obtain ⟨_, -, hvalue⟩ := Attempt.bind_eq_ok.1 hvalue
    cases hvalue
    rfl

theorem selects_of_binary {operator : Operator} (h : operator.isArithmetic = false)
    {left right : Expr} (heval : eval tree focus (.binary operator left right) = .ok value)
    (place : Nat) : value.selects place = value.toBoolean := by
  rw [eval] at heval
  obtain ⟨a, -, heval⟩ := Attempt.bind_eq_ok.1 heval
  cases operator with
  | add | sub | div | mod => cases h
  | or | and =>
    simp only at heval
    split at heval
    all_goals
      first
      | obtain ⟨_, -, heval⟩ := Attempt.bind_eq_ok.1 heval
        cases heval
        rfl
      | cases heval
        rfl
  | eq | ne | lt | le | gt | ge =>
    obtain ⟨_, -, heval⟩ := Attempt.bind_eq_ok.1 heval
    cases heval
    rfl

/-- Only a number asks for a position, so that an expression of another kind selects a node exactly
if its value is true. -/
theorem selects_of_not_isNumeric (h : condition.isNumeric = false)
    (heval : eval tree focus condition = .ok value) (place : Nat) :
    value.selects place = value.toBoolean := by
  cases condition with
  | number _ | negate _ => cases h
  | literal _ =>
    rw [eval] at heval
    cases heval
    rfl
  | path _ _ =>
    rw [eval] at heval
    obtain ⟨_, -, heval⟩ := Attempt.bind_eq_ok.1 heval
    obtain ⟨_, -, heval⟩ := Attempt.bind_eq_ok.1 heval
    cases heval
    rfl
  | filter _ _ =>
    rw [eval] at heval
    obtain ⟨_, -, heval⟩ := Attempt.bind_eq_ok.1 heval
    obtain ⟨_, -, heval⟩ := Attempt.bind_eq_ok.1 heval
    obtain ⟨_, -, heval⟩ := Attempt.bind_eq_ok.1 heval
    cases heval
    rfl
  | call name arguments =>
    rw [eval, callFunction] at heval
    rw [Expr.isNumeric] at h
    split at heval
    · cases heval
    · rename_i function hfunction
      rw [hfunction] at h
      split at heval
      · exact selects_of_call h heval place
      · cases heval
  | binary operator _ _ => exact selects_of_binary h heval place
  | union _ =>
    rw [eval] at heval
    obtain ⟨_, -, heval⟩ := Attempt.bind_eq_ok.1 heval
    cases heval
    rfl

/-! ## Verdicts -/

/-- Whether a condition is true at a node, unless it has no value there. -/
def verdict? (tree : Tree) (condition : Expr) (node : Address) : Option Bool :=
  (eval tree ⟨node, 1, 1⟩ condition).toOption.map Value.toBoolean

/-- The second condition is looked at only where the first one is true. -/
theorem verdict?_and (tree : Tree) (first second : Expr) (node : Address) :
    verdict? tree (.binary .and first second) node =
      (verdict? tree first node).bind fun truth =>
        if truth then verdict? tree second node else some false := by
  unfold verdict?
  rw [eval]
  cases eval tree ⟨node, 1, 1⟩ first with
  | error error => rfl
  | ok a =>
    show Option.map Value.toBoolean (if a.toBoolean = true then
        eval tree ⟨node, 1, 1⟩ second >>= fun b => pure (Value.scalar (.boolean b.toBoolean))
      else pure (.scalar (.boolean false)) : Result Value).toOption =
        if a.toBoolean = true then _ else _
    split
    · cases eval tree ⟨node, 1, 1⟩ second <;> rfl
    · rfl

/-- A second verdict is asked for only behind a first one that is true. -/
theorem isSome_bind_ite {first second : Option Bool} :
    (first.bind fun truth => if truth then second else some false).isSome = true ↔
      first.isSome = true ∧ (first = some true → second.isSome = true) := by
  rcases first with _ | truth
  · simp
  · cases truth <;> simp

theorem bind_ite_eq_true {first second : Option Bool} :
    (first.bind fun truth => if truth then second else some false) = some true ↔
      first = some true ∧ second = some true := by
  rcases first with _ | truth
  · simp
  · cases truth <;> simp

/-- A condition without positions selects the nodes at which it is true. -/
theorem selection?_eq_verdict? (hfree : condition.isPositionFree = true)
    (hnumeric : condition.isNumeric = false) (focus : Focus) :
    selection? (fun focus => eval tree focus condition) focus =
      verdict? tree condition focus.node := by
  have heval : eval tree focus condition = eval tree ⟨focus.node, 1, 1⟩ condition :=
    eval_of_isPositionFree hfree rfl
  rw [selection?, verdict?, ← heval]
  cases hvalue : eval tree focus condition with
  | error error => rfl
  | ok value => exact congrArg some (selects_of_not_isNumeric hnumeric hvalue focus.position)

/-- A condition without positions succeeds if it has a value at each node, and it leaves the nodes
at which it is true. -/
theorem keepSelected_verdict? (hfree : condition.isPositionFree = true)
    (hnumeric : condition.isNumeric = false) {size position : Nat} {nodes kept : List Address} :
    keepSelected (fun focus => eval tree focus condition) size position nodes = .ok kept ↔
      (∀ node ∈ nodes, (verdict? tree condition node).isSome = true) ∧
        kept = nodes.filter (verdict? tree condition · = some true) := by
  rw [keepSelected_eq_ok]
  conv => rhs; rw [← map_node_foci size position nodes]
  simp only [selection?_eq_verdict? hfree hnumeric, List.forall_mem_map, List.filter_map,
    Function.comp_def]

/-! ## Several predicates -/

/-- Whether several conditions are true at a node, unless one that is looked at has no value there.
Behind the first one that is false none is looked at. -/
def verdicts? (tree : Tree) : List Expr → Address → Option Bool
  | [], _ => some true
  | condition :: others, node =>
    (verdict? tree condition node).bind fun truth =>
      if truth then verdicts? tree others node else some false

@[simp] theorem verdicts?_nil (tree : Tree) (node : Address) : verdicts? tree [] node = some true :=
  rfl

theorem isSome_verdicts?_cons {others : List Expr} {node : Address} :
    (verdicts? tree (condition :: others) node).isSome = true ↔
      (verdict? tree condition node).isSome = true ∧
        (verdict? tree condition node = some true → (verdicts? tree others node).isSome = true) := by
  rw [verdicts?, isSome_bind_ite]

theorem verdicts?_cons_eq_true {others : List Expr} {node : Address} :
    verdicts? tree (condition :: others) node = some true ↔
      verdict? tree condition node = some true ∧ verdicts? tree others node = some true := by
  rw [verdicts?, bind_ite_eq_true]

/-- Each predicate sees the nodes that the ones before it have left, so that predicates without
positions succeed if they have a verdict on each node, and leave the nodes at which all are true. -/
theorem applyPredicates_verdicts? {conditions : List Expr}
    (h : ∀ condition ∈ conditions, condition.isPositionFree = true ∧ condition.isNumeric = false)
    {nodes kept : List Address} :
    applyPredicates tree conditions nodes = .ok kept ↔
      (∀ node ∈ nodes, (verdicts? tree conditions node).isSome = true) ∧
        kept = nodes.filter (verdicts? tree conditions · = some true) := by
  induction conditions generalizing nodes with
  | nil => simp [applyPredicates, eq_comm]
  | cons condition others ih =>
    obtain ⟨⟨hfree, hnumeric⟩, hothers⟩ := List.forall_mem_cons.1 h
    rw [applyPredicates, Attempt.bind_eq_ok]
    simp only [keepSelected_verdict? hfree hnumeric, ih hothers, isSome_verdicts?_cons,
      verdicts?_cons_eq_true, and_assoc, exists_and_left, exists_eq_left, imp_and, forall_and,
      List.mem_filter, decide_eq_true_eq, List.filter_filter, Bool.decide_and, Bool.and_comm, and_imp]

/-! ## Two predicates -/

/-- Both conditions have a value wherever both are looked at. -/
theorem isSome_verdict?_and {first second : Expr} {node : Address} :
    (verdict? tree (.binary .and first second) node).isSome = true ↔
      (verdict? tree first node).isSome = true ∧
        (verdict? tree first node = some true → (verdict? tree second node).isSome = true) := by
  rw [verdict?_and, isSome_bind_ite]

theorem verdict?_and_eq_true {first second : Expr} {node : Address} :
    verdict? tree (.binary .and first second) node = some true ↔
      verdict? tree first node = some true ∧ verdict? tree second node = some true := by
  rw [verdict?_and, bind_ite_eq_true]

theorem isPositionFree_and {first second : Expr} (hfirst : first.isPositionFree = true)
    (hsecond : second.isPositionFree = true) :
    (Expr.binary .and first second).isPositionFree = true := by
  rw [Expr.isPositionFree, Expr.outside, List.all_cons, List.all_append, Bool.and_eq_true,
    Bool.and_eq_true]
  exact ⟨rfl, hfirst, hsecond⟩

/-- Of two predicates without positions the second sees the nodes at which the first is true. -/
theorem applyPredicates_pair {first second : Expr} (hfirst : first.isPositionFree = true)
    (hsecond : second.isPositionFree = true) (hnumeric : first.isNumeric = false)
    (hnumeric' : second.isNumeric = false) {nodes kept : List Address} :
    applyPredicates tree [first, second] nodes = .ok kept ↔
      ((∀ node ∈ nodes, (verdict? tree first node).isSome = true) ∧
        ∀ node ∈ nodes, verdict? tree first node = some true →
          (verdict? tree second node).isSome = true) ∧
        kept = nodes.filter fun node =>
          verdict? tree first node = some true ∧ verdict? tree second node = some true := by
  have hplain : ∀ condition ∈ [first, second],
      condition.isPositionFree = true ∧ condition.isNumeric = false := by
    simp [hfirst, hsecond, hnumeric, hnumeric']
  rw [applyPredicates_verdicts? hplain]
  simp [isSome_verdicts?_cons, verdicts?_cons_eq_true, imp_and, forall_and]

/-- Wherever its node stands among others, an expression without positions has the same value, or
the same error.  Two predicates of this kind that have no number for their value therefore leave the
nodes that the two joined by `and` leave, in the same order, or both ways fail. -/
theorem applyPredicates_merge (tree : Tree) :
    (∀ expr : Expr, expr.isPositionFree = true → ∀ node position size place count,
      eval tree ⟨node, position, size⟩ expr = eval tree ⟨node, place, count⟩ expr) ∧
      ∀ first second : Expr, first.isPositionFree = true → second.isPositionFree = true →
        first.isNumeric = false → second.isNumeric = false → ∀ nodes,
          (∃ kept, applyPredicates tree [first, second] nodes = .ok kept ∧
            applyPredicates tree [.binary .and first second] nodes = .ok kept) ∨
          (∃ error, applyPredicates tree [first, second] nodes = .error error) ∧
            ∃ error, applyPredicates tree [.binary .and first second] nodes = .error error := by
  refine ⟨fun expr h node _ _ _ _ => eval_of_isPositionFree h rfl, ?_⟩
  intro first second hfirst hsecond hnumeric hnumeric' nodes
  apply Attempt.both_of_ok_iff
  intro kept
  rw [applyPredicates_pair hfirst hsecond hnumeric hnumeric',
    applyPredicates_single, keepSelected_verdict? (isPositionFree_and hfirst hsecond) rfl]
  simp only [isSome_verdict?_and, verdict?_and_eq_true, imp_and, forall_and]

/-- An attribute and a count of the children at even places, over a list that holds a node twice. -/
theorem applyPredicates_merge_count :
    let first := Expr.path .context [.mk .attribute (.name "id".toList) []]
    let second := Expr.binary .gt
      (.call "count".toList [.path .context [.mk .child .any [
        .binary .eq (.binary .mod (.call "position".toList []) (.number (.ofNat 2)))
          (.number (.ofNat 0))]]])
      (.number (.ofNat 0))
    let tree := (Tree.element "ul".toList).withChildren [
      ((Tree.element "li".toList).withAttribute "id".toList "x".toList).withChildren
        [.element "p".toList, .element "p".toList], .element "li".toList]
    let nodes := [[.child 0], [.child 1], [.child 0]]
    (first.isPositionFree = true ∧ second.isPositionFree = true) ∧
      (first.isNumeric = false ∧ second.isNumeric = false) ∧
      eval tree ⟨[.child 0], 1, 3⟩ second = eval tree ⟨[.child 0], 3, 3⟩ second ∧
        applyPredicates tree [first, second] nodes = .ok [[.child 0], [.child 0]] ∧
          applyPredicates tree [.binary .and first second] nodes =
            .ok [[.child 0], [.child 0]] := by
  intro first second tree nodes
  have hfirst : first.isPositionFree = true := by decide
  have hsecond : second.isPositionFree = true := by decide
  have hkept : applyPredicates tree [first, second] nodes = .ok [[.child 0], [.child 0]] := by
    decide +kernel
  obtain ⟨hplaces, hmerge⟩ := applyPredicates_merge tree
  refine ⟨⟨hfirst, hsecond⟩, ⟨rfl, rfl⟩, hplaces second hsecond _ _ _ _ _, hkept, ?_⟩
  rcases hmerge first second hfirst hsecond rfl rfl nodes with ⟨kept, h, hmerged⟩ | ⟨⟨error, h⟩, -⟩
  · rw [hkept] at h
    cases h
    exact hmerged
  · rw [hkept] at h
    cases h

end TreeSelect.XPath
