import TreeSelect.Proofs.Path.OfSegments

/-!
# What a selector means below a node

From a node, the segments of a selector lead down an element at a time: the first is below the node,
and each of the others is below the one before it or a child of it, as the sign between their
segments says.  Nothing here mentions paths or XPath, and for a given tree the meaning can be
computed.

* `leads_iff_descends`: the steps of segments lead where the segments lead.
* `Descends.below`: segments lead to elements below the node.
-/

namespace TreeSelect

/-- How the element behind a sign stands to the one before it. -/
def Relation.Relates (relation : Relation) (above node : Address) : Prop :=
  match relation with
  | .child => node.parent? = some above
  | .descendant => above ∈ node.ancestors

instance (relation : Relation) (above node : Address) : Decidable (relation.Relates above node) :=
  match relation with
  | .child => inferInstanceAs (Decidable (node.parent? = some above))
  | .descendant => inferInstanceAs (Decidable (above ∈ node.ancestors))

/-- Whether segments lead from a node to another, by way of an element for each of them.  The first
of these elements stands in the given relation to the node, and each later one in the relation of
the segment before it. -/
def Descends (tree : Tree) (relation : Relation) (above : Address) :
    List Segment → Address → Prop
  | [], node => node = above
  | segment :: later, node =>
    ∃ next, relation.Relates above next ∧ segment.Satisfied tree next ∧
      Descends tree segment.relation next later node

variable {tree : Tree} {relation : Relation} {above node : Address}

/-! ## Steps -/

theorem Path.Axis.relates_ofRelation :
    (Path.Axis.ofRelation relation).Relates above node ↔ relation.Relates above node := by
  cases relation <;> exact Iff.rfl

/-- The steps of segments lead where the segments lead. -/
theorem Path.leads_iff_descends {segments : List Segment} {axis : Path.Axis}
    (haxis : ∀ next, axis.Relates above next ↔ relation.Relates above next) :
    Leads tree (ofSegments axis segments) above node ↔ Descends tree relation above segments node := by
  induction segments generalizing axis relation above with
  | nil => exact Iff.rfl
  | cons segment later ih =>
    have hlater : ∀ next,
        Leads tree (ofSegments (.ofRelation segment.relation) later) next node ↔
          Descends tree segment.relation next later node :=
      fun next => ih fun _ => Axis.relates_ofRelation
    have hstep : (stepOf axis segment).axis = axis := rfl
    simp only [ofSegments, Leads, Descends, fits_iff, hlater, hstep, haxis]

/-! ## Where segments lead -/

theorem Relation.Relates.mem_ancestors (h : relation.Relates above node) :
    above ∈ node.ancestors := by
  cases relation with
  | descendant => exact h
  | child => exact Address.mem_ancestors_of_parent? h

theorem descends_singleton {segment : Segment} :
    Descends tree relation above [segment] node ↔
      relation.Relates above node ∧ segment.Satisfied tree node := by
  simp [Descends]

/-- Segments lead to elements below the node. -/
theorem Descends.below {segments : List Segment} (hne : segments ≠ [])
    (h : Descends tree relation above segments node) :
    above ∈ node.ancestors ∧ tree.kind? node = some .element := by
  induction segments generalizing relation above with
  | nil => exact absurd rfl hne
  | cons segment later ih =>
    obtain ⟨next, hrelates, hsatisfied, hlater⟩ := h
    cases later with
    | nil =>
      cases hlater
      exact ⟨hrelates.mem_ancestors, hsatisfied.element⟩
    | cons second later =>
      obtain ⟨hnext, helement⟩ := ih (List.cons_ne_nil second later) hlater
      exact ⟨Address.mem_ancestors_trans hrelates.mem_ancestors hnext, helement⟩

theorem Descends.mem_descendantsOf {segments : List Segment} (hne : segments ≠ [])
    (h : Descends tree relation above segments node) : node ∈ tree.descendantsOf above := by
  obtain ⟨habove, helement⟩ := h.below hne
  obtain ⟨rest, hrest, rfl⟩ := Address.mem_ancestors.1 habove
  exact Tree.mem_descendantsOf.2 ⟨rest, hrest, rfl, Tree.subtree?_isSome_of_element helement⟩

/-- Where segments lead from any node, they lead from the root. -/
theorem Descends.from_root {segments : List Segment} (hne : segments ≠ [])
    (h : Descends tree .descendant above segments node) :
    Descends tree .descendant [] segments node := by
  obtain ⟨segment, later, rfl⟩ := List.exists_cons_of_ne_nil hne
  obtain ⟨next, hrelates, hsatisfied, hlater⟩ := h
  exact ⟨next, Address.root_mem_of_mem_ancestors hrelates, hsatisfied, hlater⟩

/-! ## Computing where segments lead -/

/-- An element for a segment is a node of the tree, so that there are finitely many to try. -/
theorem descends_cons_iff {segment : Segment} {later : List Segment} :
    Descends tree relation above (segment :: later) node ↔
      ∃ next ∈ tree.descendants, relation.Relates above next ∧ segment.Satisfied tree next ∧
        Descends tree segment.relation next later node := by
  constructor
  · intro h
    obtain ⟨next, hrelates, hsatisfied, hlater⟩ := h
    refine ⟨next, ?_, hrelates, hsatisfied, hlater⟩
    rw [Tree.mem_descendants]
    refine ⟨?_, Tree.subtree?_isSome_of_element hsatisfied.element⟩
    rintro rfl
    cases hrelates.mem_ancestors
  · intro h
    obtain ⟨next, -, hnext⟩ := h
    exact ⟨next, hnext⟩

/-- Where segments lead can be computed from the first segment to the last. -/
def decideDescends (tree : Tree) (relation : Relation) (above : Address) :
    (segments : List Segment) → (node : Address) →
      Decidable (Descends tree relation above segments node)
  | [], node => inferInstanceAs (Decidable (node = above))
  | segment :: later, node =>
    have := fun next => decideDescends tree segment.relation next later node
    decidable_of_iff _ descends_cons_iff.symm

instance (tree : Tree) (relation : Relation) (above : Address) (segments : List Segment)
    (node : Address) : Decidable (Descends tree relation above segments node) :=
  decideDescends tree relation above segments node

end TreeSelect
