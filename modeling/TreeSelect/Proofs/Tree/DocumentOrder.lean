import TreeSelect.Tree.Order

/-!
# Document order is a total order

`Address.compare` is the lexicographic order of edges, so it is total, and only a node and itself
compare as equal.  That is why a list that is sorted by it has equal nodes side by side, and why
`Address.documentOrder`, which drops repeated neighbours alone, lists each node once.

* `InDocumentOrder` says that a list is strictly increasing.
* `mem_documentOrder` and `inDocumentOrder_documentOrder` say what `documentOrder` gives.
* `InDocumentOrder.eq_of_mem_iff`: a set of nodes has one such listing.
-/

namespace TreeSelect

namespace Edge

instance : Std.TransCmp Edge.compare where
  eq_swap {a b} := by
    cases a <;> cases b
    · exact Std.OrientedOrd.eq_swap
    · rfl
    · rfl
    · exact Std.OrientedOrd.eq_swap
  isLE_trans {a b c} hab hbc := by
    cases a <;> cases b <;> cases c <;>
      simp only [Edge.compare, Ordering.isLE, Bool.false_eq_true] at hab hbc ⊢
    · exact Std.TransOrd.isLE_trans hab hbc
    · exact Std.TransOrd.isLE_trans hab hbc

instance : Std.LawfulEqCmp Edge.compare where
  eq_of_compare {a b} h := by
    cases a <;> cases b <;> simp only [Edge.compare, reduceCtorEq] at h
    · rw [Std.LawfulEqOrd.eq_of_compare h]
    · rw [Std.LawfulEqOrd.eq_of_compare h]

end Edge

namespace Address

/-! ## The order of two nodes -/

theorem compare_eq_compareLex (s t : Address) : compare s t = List.compareLex Edge.compare s t := by
  induction s generalizing t with
  | nil => cases t <;> rfl
  | cons a s ih =>
    cases t with
    | nil => rfl
    | cons b t => rw [compare, List.compareLex_cons_cons, ih]

instance : Std.TransCmp Address.compare := by
  rw [show Address.compare = List.compareLex Edge.compare from
    funext fun s => funext fun t => compare_eq_compareLex s t]
  infer_instance

instance : Std.LawfulEqCmp Address.compare := by
  rw [show Address.compare = List.compareLex Edge.compare from
    funext fun s => funext fun t => compare_eq_compareLex s t]
  infer_instance

/-- Only a node and itself compare as equal. -/
theorem compare_eq_iff {s t : Address} : compare s t = .eq ↔ s = t :=
  Std.LawfulEqCmp.compare_eq_iff_eq

theorem compare_self (s : Address) : compare s s = .eq := compare_eq_iff.2 rfl

theorem compare_swap (s t : Address) : compare s t = (compare t s).swap :=
  Std.OrientedCmp.eq_swap

theorem le_trans (s t u : Address) (hst : le s t = true) (htu : le t u = true) : le s u = true :=
  Std.TransCmp.isLE_trans hst htu

theorem le_total (s t : Address) : (le s t || le t s) = true := by
  unfold le
  rw [compare_swap t s]
  cases compare s t <;> rfl

/-- Different nodes of which the first does not come after the second are in strict order. -/
theorem compare_eq_lt_of_le {s t : Address} (hle : le s t = true) (hne : s ≠ t) :
    compare s t = .lt := by
  unfold le at hle
  cases hcompare : compare s t with
  | lt => rfl
  | eq => exact absurd (compare_eq_iff.1 hcompare) hne
  | gt => simp [hcompare] at hle

/-- A node comes before all nodes below it. -/
theorem compare_append (s : Address) {t : Address} (ht : t ≠ []) : compare s (s ++ t) = .lt := by
  induction s with
  | nil =>
    obtain ⟨a, t, rfl⟩ := List.exists_cons_of_ne_nil ht
    rfl
  | cons a s ih =>
    have hedge : a.compare a = .eq := Std.ReflCmp.compare_self
    rw [List.cons_append, compare, hedge, ih]
    rfl

/-! ## Lists in document order -/

/-- A list in strict document order. -/
def InDocumentOrder (nodes : List Address) : Prop :=
  nodes.Pairwise fun s t => compare s t = .lt

theorem InDocumentOrder.nodup {nodes : List Address} (h : InDocumentOrder nodes) :
    nodes.Nodup := by
  refine List.Pairwise.imp ?_ h
  intro s t hlt heq
  rw [heq, compare_self] at hlt
  cases hlt

theorem InDocumentOrder.sublist {nodes others : List Address} (h : InDocumentOrder nodes)
    (hsublist : others.Sublist nodes) : InDocumentOrder others :=
  List.Pairwise.sublist hsublist h

/-- A set of nodes has one listing in document order. -/
theorem InDocumentOrder.eq_of_mem_iff {nodes others : List Address} (h : InDocumentOrder nodes)
    (hothers : InDocumentOrder others) (hmem : ∀ node, node ∈ others ↔ node ∈ nodes) :
    others = nodes := by
  have hperm : others.Perm nodes :=
    (List.perm_ext_iff_of_nodup hothers.nodup h.nodup).2 hmem
  refine hperm.eq_of_pairwise ?_ hothers h
  intro s t _ _ hst hts
  exact absurd hts (Std.OrientedCmp.not_lt_of_lt hst)

theorem mem_dropRepeats {node : Address} {nodes : List Address} :
    node ∈ dropRepeats nodes ↔ node ∈ nodes := by
  induction nodes with
  | nil => rfl
  | cons first rest ih =>
    rw [dropRepeats]
    split
    case isTrue hhead =>
      have hfirst : first ∈ rest := List.mem_of_head? hhead
      rw [ih, List.mem_cons]
      constructor
      · exact .inr
      · intro hcase
        rcases hcase with rfl | hrest
        · exact hfirst
        · exact hrest
    case isFalse => rw [List.mem_cons, List.mem_cons, ih]

/-- In a sorted list equal nodes are neighbours, so that dropping repeated neighbours leaves each
node once. -/
theorem inDocumentOrder_dropRepeats {nodes : List Address}
    (h : nodes.Pairwise fun s t => le s t = true) : InDocumentOrder (dropRepeats nodes) := by
  induction nodes with
  | nil => exact List.Pairwise.nil
  | cons first rest ih =>
    obtain ⟨hfirst, hrest⟩ := List.pairwise_cons.1 h
    rw [dropRepeats]
    split
    case isTrue => exact ih hrest
    case isFalse hhead =>
      refine List.Pairwise.cons ?_ (ih hrest)
      intro node hnode
      have hnode' : node ∈ rest := mem_dropRepeats.1 hnode
      apply compare_eq_lt_of_le (hfirst node hnode')
      intro hcase
      subst hcase
      -- the node would be the head of the rest, as it comes before all of the rest
      obtain ⟨second, others, rfl⟩ := List.exists_cons_of_ne_nil (List.ne_nil_of_mem hnode')
      have hle : le first second = true := hfirst second List.mem_cons_self
      have hge : le second first = true := by
        rcases List.mem_cons.1 hnode' with heq | hothers
        · rw [← heq]
          exact Std.ReflCmp.isLE_rfl
        · exact (List.pairwise_cons.1 hrest).1 first hothers
      have heq : compare first second = .eq := Std.OrientedCmp.isLE_antisymm hle hge
      exact hhead (by rw [compare_eq_iff.1 heq]; rfl)

@[simp] theorem mem_documentOrder {node : Address} {nodes : List Address} :
    node ∈ documentOrder nodes ↔ node ∈ nodes := by
  rw [documentOrder, mem_dropRepeats, List.mem_mergeSort]

theorem inDocumentOrder_documentOrder (nodes : List Address) :
    InDocumentOrder (documentOrder nodes) :=
  inDocumentOrder_dropRepeats
    (List.pairwise_mergeSort le_trans le_total nodes)

/-- A listing in document order of the nodes of a list is what `documentOrder` gives for it. -/
theorem documentOrder_eq {nodes listing : List Address} (h : InDocumentOrder listing)
    (hmem : ∀ node, node ∈ listing ↔ node ∈ nodes) : documentOrder nodes = listing := by
  apply h.eq_of_mem_iff (inDocumentOrder_documentOrder nodes)
  intro node
  rw [mem_documentOrder, hmem]

/-- Only the set of the nodes shows in their order. -/
theorem documentOrder_congr {nodes others : List Address} (h : ∀ node, node ∈ nodes ↔ node ∈ others) :
    documentOrder nodes = documentOrder others := by
  apply documentOrder_eq (inDocumentOrder_documentOrder others)
  intro node
  rw [mem_documentOrder, h]

theorem documentOrder_singleton (node : Address) : documentOrder [node] = [node] :=
  documentOrder_eq (List.pairwise_singleton _ _) (fun _ => Iff.rfl)

end Address
end TreeSelect
