import TreeSelect.Proofs.Tree.Numbering
import TreeSelect.Proofs.XPath.Conditions

/-!
# Predicates that ask for a place

A predicate is evaluated at each node of a list with the place of the node in the list.  `FocusIn`
says at which foci, and `Selects` says which of them a predicate selects, also where it asks for a
place.

* `applyPredicates_of_selects`: what such a predicate leaves.
* `FocusIn.eq`: a list without repetitions gives each node one place.
* `eval_operator`: operators whose operands have values.
-/

namespace TreeSelect.XPath

variable {tree : Tree} {focus : Focus}

/-! ## Foci -/

/-- The foci at which a predicate is evaluated for the nodes of a list. -/
def FocusIn (nodes : List Address) (focus : Focus) : Prop :=
  ∃ index, nodes[index]? = some focus.node ∧ focus.position = index + 1 ∧
    focus.size = nodes.length

theorem mem_foci_iff {nodes : List Address} :
    focus ∈ foci nodes.length 1 nodes ↔ FocusIn nodes focus := by
  simp only [mem_foci, FocusIn, Nat.add_comm 1]

theorem FocusIn.mem {nodes : List Address} (h : FocusIn nodes focus) : focus.node ∈ nodes := by
  obtain ⟨index, hnode, -, -⟩ := h
  exact List.mem_of_getElem? hnode

theorem FocusIn.size_pos {nodes : List Address} (h : FocusIn nodes focus) : 0 < focus.size := by
  obtain ⟨index, hnode, -, hsize⟩ := h
  obtain ⟨hlt, -⟩ := List.getElem?_eq_some_iff.1 hnode
  omega

/-- In a list without repetitions a node has one place. -/
theorem FocusIn.eq {nodes : List Address} (hnodup : nodes.Nodup) {other : Focus}
    (h : FocusIn nodes focus) (hother : FocusIn nodes other) (hnode : focus.node = other.node) :
    focus = other := by
  obtain ⟨node, position, size⟩ := focus
  obtain ⟨node', position', size'⟩ := other
  obtain ⟨index, hindex, hposition, hsize⟩ := h
  obtain ⟨index', hindex', hposition', hsize'⟩ := hother
  simp only at hnode hindex hposition hsize hindex' hposition' hsize'
  obtain ⟨hlt, -⟩ := List.getElem?_eq_some_iff.1 hindex
  have hsame : index = index' :=
    (List.getElem?_inj hlt hnodup).1 (hindex.trans (hnode ▸ hindex'.symm))
  rw [hnode, hposition, hposition', hsize, hsize', hsame]

/-! ## Predicates -/

/-- As a predicate at a focus, an expression selects the node exactly if `p` holds. -/
def Selects (tree : Tree) (focus : Focus) (condition : Expr) (p : Prop) : Prop :=
  ∃ value, eval tree focus condition = .ok value ∧ (value.selects focus.position = true ↔ p)

/-- A single predicate leaves the nodes that it selects at their places. -/
theorem applyPredicates_of_selects {condition : Expr} {holds : Focus → Prop}
    {nodes : List Address}
    (h : ∀ focus, FocusIn nodes focus → Selects tree focus condition (holds focus)) :
    ∃ kept, applyPredicates tree [condition] nodes = .ok kept ∧
      ∀ node, node ∈ kept ↔ ∃ focus, FocusIn nodes focus ∧ focus.node = node ∧ holds focus := by
  have hselects : ∀ focus ∈ foci nodes.length 1 nodes, Selects tree focus condition (holds focus) :=
    fun focus hfocus => h focus (mem_foci_iff.1 hfocus)
  obtain ⟨kept, hkept, hmem⟩ := exists_keepSelected hselects
  refine ⟨kept, applyPredicates_single.2 hkept, fun node => ?_⟩
  simp only [hmem, mem_foci_iff, and_comm]

/-! ## Operators -/

section Operators

variable {operator : Operator} {left right : Expr} {a b : Value}

/-- An operator other than `or` and `and` needs the values of both operands. -/
theorem eval_operator (hor : operator ≠ .or) (hand : operator ≠ .and)
    (hleft : eval tree focus left = .ok a) (hright : eval tree focus right = .ok b) :
    eval tree focus (.binary operator left right) =
      .ok (if operator.isComparison then .scalar (.boolean (compareValues tree operator a b))
        else .scalar (.number (arithmetic operator (a.toNumber tree) (b.toNumber tree)))) := by
  rw [eval, hleft]
  cases operator with
  | or => exact absurd rfl hor
  | and => exact absurd rfl hand
  | _ =>
    show eval tree focus right >>= _ = _
    rw [hright]
    rfl

end Operators

end TreeSelect.XPath
