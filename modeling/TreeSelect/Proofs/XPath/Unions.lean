import TreeSelect.Proofs.XPath.NodeSets

/-!
# Unions

The branches of a union are evaluated one after another, and the nodes of all of them are put in
document order.  Only the set of these nodes shows in the result, so that neither the order of the
branches nor their number nor a union inside the union matters (`eval_union_set`).

* `unionNodes_append`: the nodes of some branches come before those of the branches behind them.
* `eval_union_eq_ok`: a union succeeds if each of its branches has nodes, and which nodes it has.
-/

namespace TreeSelect.XPath

open Address (documentOrder InDocumentOrder)

variable {tree : Tree} {focus : Focus}

theorem unionNodes_append (tree : Tree) (focus : Focus) (branches others : List Expr) :
    unionNodes tree focus (branches ++ others) = do
      let nodes ← unionNodes tree focus branches
      let more ← unionNodes tree focus others
      return nodes ++ more := by
  induction branches with
  | nil =>
    rw [unionNodes]
    exact (bind_pure (unionNodes tree focus others)).symm
  | cons branch branches ih =>
    rw [List.cons_append, unionNodes, unionNodes, ih]
    simp only [bind_assoc, pure_bind, List.append_assoc]

/-- A union inside a union gives its nodes in document order. -/
theorem unionNodes_union (tree : Tree) (focus : Focus) (inner others : List Expr) :
    unionNodes tree focus (.union inner :: others) = do
      let nodes ← unionNodes tree focus inner
      let more ← unionNodes tree focus others
      return documentOrder nodes ++ more := by
  rw [unionNodes, eval]
  simp only [bind_assoc, pure_bind]
  rfl

/-- All branches have to give nodes. -/
theorem exists_unionNodes_iff {branches : List Expr} :
    (∃ nodes, unionNodes tree focus branches = .ok nodes) ↔
      ∀ branch ∈ branches, ∃ found, eval tree focus branch = .ok (.nodes found) := by
  induction branches with
  | nil => simp [unionNodes]
  | cons branch others ih =>
    rw [List.forall_mem_cons, ← ih]
    simp only [unionNodes_cons_eq_ok]
    constructor
    · rintro ⟨_, found, rest, hfound, hrest, -⟩
      exact ⟨⟨found, hfound⟩, ⟨rest, hrest⟩⟩
    · rintro ⟨⟨found, hfound⟩, ⟨rest, hrest⟩⟩
      exact ⟨_, found, rest, hfound, hrest, rfl⟩

/-- The nodes of several branches are the nodes of each of them. -/
theorem mem_unionNodes {branches : List Expr} {nodes : List Address}
    (h : unionNodes tree focus branches = .ok nodes) {node : Address} :
    node ∈ nodes ↔ ∃ branch ∈ branches, ∃ found,
      eval tree focus branch = .ok (.nodes found) ∧ node ∈ found := by
  induction branches generalizing nodes with
  | nil =>
    rw [unionNodes] at h
    cases h
    simp
  | cons branch others ih =>
    obtain ⟨found, rest, hfound, hrest, rfl⟩ := unionNodes_cons_eq_ok.1 h
    simp [ih hrest, hfound]

/-- A union has a value if each of its branches has nodes for its value.  The value is the nodes of
all branches, each once and in document order. -/
theorem eval_union_eq_ok {branches : List Expr} {value : Value} :
    eval tree focus (.union branches) = .ok value ↔
      (∀ branch ∈ branches, ∃ found, eval tree focus branch = .ok (.nodes found)) ∧
        ∃ nodes, value = .nodes nodes ∧ InDocumentOrder nodes ∧
          ∀ node, node ∈ nodes ↔ ∃ branch ∈ branches, ∃ found,
            eval tree focus branch = .ok (.nodes found) ∧ node ∈ found := by
  rw [eval, Attempt.bind_eq_ok, ← exists_unionNodes_iff]
  constructor
  · rintro ⟨nodes, hnodes, h⟩
    cases h
    refine ⟨⟨nodes, hnodes⟩, _, rfl, Address.inDocumentOrder_documentOrder nodes, fun node => ?_⟩
    rw [Address.mem_documentOrder, mem_unionNodes hnodes]
  · rintro ⟨⟨nodes, hnodes⟩, listing, rfl, horder, hmem⟩
    refine ⟨nodes, hnodes, ?_⟩
    have hlisting := Address.documentOrder_eq horder fun node =>
      (hmem node).trans (mem_unionNodes hnodes).symm
    rw [hlisting]
    rfl

/-- Neither the order of the branches of a union shows in its value nor how often a branch is
repeated, and a union among the branches can be replaced by its own branches.  The value is the set
of the nodes of all branches, and there is none if a branch does not give nodes. -/
theorem eval_union_set (tree : Tree) (focus : Focus) :
    (∀ branches others : List Expr, (∀ branch, branch ∈ branches ↔ branch ∈ others) →
      (∃ nodes, eval tree focus (.union branches) = .ok (.nodes nodes) ∧
        eval tree focus (.union others) = .ok (.nodes nodes)) ∨
      (∃ error, eval tree focus (.union branches) = .error error) ∧
        ∃ error, eval tree focus (.union others) = .error error) ∧
      (∀ before inner after : List Expr,
        eval tree focus (.union (before ++ .union inner :: after)) =
          eval tree focus (.union (before ++ inner ++ after))) ∧
        ∀ (branches : List Expr) nodes, eval tree focus (.union branches) = .ok (.nodes nodes) ↔
          (∀ branch ∈ branches, ∃ found, eval tree focus branch = .ok (.nodes found)) ∧
            InDocumentOrder nodes ∧ ∀ node, node ∈ nodes ↔ ∃ branch ∈ branches, ∃ found,
              eval tree focus branch = .ok (.nodes found) ∧ node ∈ found := by
  refine ⟨?_, ?_, ?_⟩
  · intro branches others hsame
    have hiff : ∀ value, eval tree focus (.union branches) = .ok value ↔
        eval tree focus (.union others) = .ok value := by
      intro value
      simp only [eval_union_eq_ok, hsame]
    rcases Attempt.both_of_ok_iff hiff with ⟨value, hvalue, hother⟩ | hfail
    · obtain ⟨-, nodes, rfl, -, -⟩ := eval_union_eq_ok.1 hvalue
      exact .inl ⟨nodes, hvalue, hother⟩
    · exact .inr hfail
  · intro before inner after
    rw [eval, eval, unionNodes_append, unionNodes_union, List.append_assoc, unionNodes_append,
      unionNodes_append]
    simp only [bind_assoc, pure_bind]
    refine bind_congr fun first => bind_congr fun middle => bind_congr fun last => ?_
    have hsame : documentOrder (first ++ (documentOrder middle ++ last)) =
        documentOrder (first ++ (middle ++ last)) := by
      apply Address.documentOrder_congr
      intro node
      simp
    rw [hsame]
  · intro branches nodes
    simp only [eval_union_eq_ok, Value.nodes.injEq, exists_eq_left']

/-- A branch is repeated behind another one, whose node comes first. -/
theorem eval_union_set_root :
    let tree := (Tree.element "ul".toList).withChild (.element "li".toList)
    let focus : Focus := ⟨[.child 0], 1, 1⟩
    let here := Expr.path .context []
    let root := Expr.path .root []
    (∀ branch, branch ∈ [here, root, here] ↔ branch ∈ [root, here]) ∧
      eval tree focus (.union [root, here]) = .ok (.nodes [[], [.child 0]]) ∧
        eval tree focus (.union [here, root, here]) = .ok (.nodes [[], [.child 0]]) := by
  intro tree focus here root
  have hsame : ∀ branch, branch ∈ [here, root, here] ↔ branch ∈ [root, here] := by
    intro branch
    simp only [List.mem_cons, List.not_mem_nil, or_false]
    grind
  have hhere : eval tree focus here = .ok (.nodes [[.child 0]]) := by
    simp only [here, eval, startNodes, walk]
    rfl
  have hroot : eval tree focus root = .ok (.nodes [[]]) := by
    simp only [root, eval, startNodes, walk]
    rfl
  obtain ⟨hset, -, hvalue⟩ := eval_union_set tree focus
  have hunion : eval tree focus (.union [root, here]) = .ok (.nodes [[], [.child 0]]) := by
    rw [hvalue]
    refine ⟨by simp [hhere, hroot], by simp [InDocumentOrder, Address.compare], fun node => ?_⟩
    simp [hhere, hroot]
  refine ⟨hsame, hunion, ?_⟩
  rcases hset _ _ hsame with ⟨nodes, hnodes, hother⟩ | ⟨-, error, herror⟩
  · rw [hunion] at hother
    cases hother
    exact hnodes
  · rw [hunion] at herror
    cases herror

end TreeSelect.XPath
