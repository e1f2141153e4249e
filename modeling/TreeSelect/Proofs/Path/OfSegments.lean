import Mathlib.Data.List.Induction
import TreeSelect.Proofs.Path.Agreement
import TreeSelect.Proofs.Path.Meaning
import TreeSelect.Proofs.Selector.ClassNames
import TreeSelect.Proofs.Selector.Matching

/-!
# From segments to paths

The walk along a selector makes one step of each segment.  `ofSegments` tells which, apart from the
reading, and `exists_chain` joins the two.

* `fits_iff`: the step of a segment fits the elements that satisfy the segment.
* `leads_ofSegments_iff`: from the root, the steps lead to the elements that the segments match.
-/

namespace TreeSelect.Path

/-! ## The steps of segments -/

/-- The step of a segment. -/
def stepOf (axis : Axis) (segment : Segment) : Step :=
  ⟨axis, segment.tag, plainPredicates segment⟩

/-- The steps of segments without pseudo-classes; `axis` is the axis of the first of them. -/
def ofSegments (axis : Axis) : List Segment → List Step
  | [] => []
  | segment :: later => stepOf axis segment :: ofSegments (.ofRelation segment.relation) later

/-- Segments without pseudo-classes ask for no position. -/
theorem stepsOf_eq_ofSegments {segments : List Segment}
    (h : ∀ segment ∈ segments, segment.pseudo = none) (axis : Axis) :
    stepsOf axis segments = ofSegments axis segments := by
  induction segments generalizing axis with
  | nil => rfl
  | cons segment later ih =>
    obtain ⟨hsegment, hlater⟩ := List.forall_mem_cons.1 h
    rw [stepsOf_cons, predicatesOf_of_plain hsegment, ih hlater, ofSegments, stepOf]

/-- The steps of a selector are those of its segments, whose class names are names. -/
theorem exists_chain {selector : Text} {axis : Axis} {offset : Nat} {rest : Text}
    {steps : List Step} (h : stepsFrom selector axis offset rest = .ok steps) :
    ∃ segments, Segment.chainFrom selector offset rest = .ok segments ∧ segments ≠ [] ∧
      (∀ segment ∈ segments, segment.HasClassNames) ∧
        ((∀ segment ∈ segments, segment.pseudo = none) → steps = ofSegments axis segments) := by
  obtain ⟨segments, hchain, -, rfl⟩ := stepsFrom_eq_ok_iff.1 h
  refine ⟨segments, hchain, Segment.chainFrom_ne_nil hchain, fun segment hsegment => ?_,
    fun hpseudo => stepsOf_eq_ofSegments hpseudo axis⟩
  obtain ⟨place, start, after, hread⟩ := Segment.exists_read_of_mem hchain segment hsegment
  exact Segment.hasClassNames_of_read hread

/-- A predicate of a segment is one that it has without its pseudo-class, or the position that the
pseudo-class stands for. -/
theorem of_mem_predicates {selector : Text} {segment : Segment} {conditions : List Predicate}
    (h : predicates selector segment = .ok conditions) {predicate : Predicate}
    (hpredicate : predicate ∈ conditions) :
    predicate ∈ plainPredicates segment ∨ ∃ pseudo ∈ segment.pseudo, ∃ condition,
      Position.ofPseudo pseudo.name pseudo.argument = .ok condition ∧
        predicate = .position condition := by
  obtain ⟨-, rfl⟩ := predicates_eq_ok_iff.1 h
  rcases List.mem_append.1 hpredicate with hplain | hposition
  · exact .inl hplain
  · obtain ⟨condition, hcondition, rfl⟩ := List.mem_map.1 hposition
    obtain ⟨pseudo, hpseudo, hcondition⟩ := mem_positionOf.1 (Option.mem_toList.1 hcondition)
    exact .inr ⟨pseudo, hpseudo, condition, hcondition, rfl⟩

/-- Whether a step is that of a segment which is read somewhere in the selector. -/
def IsStepOf (selector : Text) (segment : Segment) (step : Step) : Prop :=
  step.tag = segment.tag ∧ predicates selector segment = .ok step.predicates ∧
    ∃ place input after, Segment.read selector place input = .ok (segment, after)

/-- The steps of a selector are, one by one, those of its segments. -/
theorem forall₂_of_stepsFrom {selector : Text} {axis : Axis} {offset : Nat} {rest : Text}
    {steps : List Step} {segments : List Segment}
    (h : stepsFrom selector axis offset rest = .ok steps)
    (hchain : Segment.chainFrom selector offset rest = .ok segments) :
    List.Forall₂ (IsStepOf selector) segments steps := by
  obtain ⟨others, hothers, hpath, rfl⟩ := stepsFrom_eq_ok_iff.1 h
  obtain rfl : segments = others := Except.ok.inj (hchain.symm.trans hothers)
  have hsteps : ∀ segment ∈ segments, ∀ axis,
      IsStepOf selector segment ⟨axis, segment.tag, predicatesOf segment⟩ := fun segment hsegment _ =>
    ⟨rfl, predicates_eq_ok_iff.2 ⟨hpath.placed segment hsegment, rfl⟩,
      Segment.exists_read_of_mem hchain segment hsegment⟩
  clear h hchain hothers hpath
  induction segments generalizing axis with
  | nil => exact .nil
  | cons segment later ih =>
    obtain ⟨hsegment, hlater⟩ := List.forall_mem_cons.1 hsteps
    exact .cons (hsegment axis) (ih hlater)

/-- Each step of a selector is that of a segment that is read somewhere in it. -/
theorem exists_of_mem_stepsFrom {selector : Text} {axis : Axis} {offset : Nat} {rest : Text}
    {steps : List Step} {segments : List Segment}
    (h : stepsFrom selector axis offset rest = .ok steps)
    (hchain : Segment.chainFrom selector offset rest = .ok segments) :
    ∀ step ∈ steps, ∃ segment ∈ segments, IsStepOf selector segment step := by
  have hsteps := forall₂_of_stepsFrom h hchain
  clear h hchain
  induction hsteps with
  | nil => simp
  | cons hfirst _ ih =>
    rw [List.forall_mem_cons]
    refine ⟨⟨_, List.mem_cons_self, hfirst⟩, fun step hstep => ?_⟩
    obtain ⟨segment, hsegment, hof⟩ := ih step hstep
    exact ⟨segment, List.mem_cons_of_mem _ hsegment, hof⟩

/-! ## The step of a segment -/

/-- The predicates of a segment ask what the segment asks. -/
theorem forall_plainPredicates {p : Predicate → Prop} {segment : Segment} :
    (∀ predicate ∈ plainPredicates segment, p predicate) ↔
      (∀ value ∈ segment.id, p (.id value)) ∧
        (∀ entry ∈ (segment.attributes.getD .empty).entries, p (.attribute entry.1 entry.2)) ∧
          ∀ name ∈ segment.classes.getD [], p (.hasClass name) := by
  have hid : (∀ predicate ∈ (segment.id.map Predicate.id).toList, p predicate) ↔
      ∀ value ∈ segment.id, p (.id value) := by
    cases segment.id with
    | none => simp
    | some value => simp
  rw [plainPredicates, List.forall_mem_append, List.forall_mem_append, List.forall_mem_map,
    List.forall_mem_map, hid, and_assoc]

/-- What a segment asks for beside a position can be written if its attribute names can. -/
theorem isReadable_plainPredicates {segment : Segment} (hnames : segment.HasClassNames)
    (hattributes : ∀ entry ∈ (segment.attributes.getD .empty).entries,
      XPath.Lexeme.isName entry.1 = true) :
    ∀ predicate ∈ plainPredicates segment, predicate.isReadable = true := by
  refine forall_plainPredicates.2 ⟨fun _ _ => rfl, hattributes, ?_⟩
  intro name hname
  apply decide_eq_true
  intro hquote
  exact ne_quote_of_isNameChar ((hnames name hname).2 _ hquote) rfl

/-- The step of a plain segment can be written and asks for what an element has. -/
theorem stepOf_isPlain {segment : Segment} (h : segment.isPlain = true)
    (hnames : segment.HasClassNames) (axis : Axis) :
    (stepOf axis segment).isReadable = true ∧ (stepOf axis segment).isPlain = true := by
  obtain ⟨-, htag, hattributes⟩ := Segment.isPlain_iff.1 h
  constructor
  · rw [Step.isReadable, Bool.and_eq_true, List.all_eq_true]
    exact ⟨htag, isReadable_plainPredicates hnames hattributes⟩
  · rw [Step.isPlain, List.all_eq_true]
    refine forall_plainPredicates.2 ⟨fun _ _ => rfl, fun _ _ => rfl, ?_⟩
    intro name hname
    obtain ⟨hne, hchars⟩ := hnames name hname
    rw [Predicate.isPlain, Bool.and_eq_true, List.all_eq_true]
    refine ⟨by simpa using hne, ?_⟩
    intro c hc
    rw [isBlank_of_isNameChar (hchars c hc)]
    rfl

/-- The steps of plain segments ask for what an element has. -/
theorem isPlain_ofSegments {segments : List Segment}
    (hplain : ∀ segment ∈ segments, segment.isPlain = true ∧ segment.HasClassNames) (axis : Axis) :
    ∀ step ∈ ofSegments axis segments, step.isPlain = true := by
  induction segments generalizing axis with
  | nil =>
    intro step hstep
    cases hstep
  | cons segment later ih =>
    intro step hstep
    rcases List.mem_cons.1 hstep with rfl | hstep
    · obtain ⟨hsegment, hnames⟩ := hplain segment List.mem_cons_self
      exact (stepOf_isPlain hsegment hnames axis).2
    · exact ih (fun other hother => hplain other (List.mem_cons_of_mem segment hother)) _ step hstep

/-- The step of a segment fits the elements that satisfy the segment. -/
theorem fits_iff {tree : Tree} {axis : Axis} {segment : Segment} {node : Address} :
    (stepOf axis segment).Fits tree node ↔ segment.Satisfied tree node := by
  have hattribute : ∀ {name : Text} {value : Option Text},
      Predicate.Holds tree node (.attribute name value) ↔
        (tree.attribute? node name).isSome = true ∧
          ∀ expected ∈ value, tree.attribute? node name = some expected := by
    intro name value
    cases value with
    | none =>
      show (tree.attribute? node name).isSome = true ↔ _
      simp
    | some value =>
      show tree.attribute? node name = some value ↔ _
      constructor
      · intro h
        rw [h]
        simp
      · intro h
        exact h.2 value rfl
  constructor
  · intro hcase
    rcases hcase with ⟨helement, htag, hpredicates⟩
    obtain ⟨hid, hattributes, hclasses⟩ := forall_plainPredicates.1 hpredicates
    exact ⟨helement, htag, hid, fun entry hentry => hattribute.1 (hattributes entry hentry),
      hclasses⟩
  · intro hcase
    rcases hcase with ⟨helement, htag, hid, hattributes, hclasses⟩
    exact ⟨helement, htag, forall_plainPredicates.2
      ⟨hid, fun entry hentry => hattribute.2 (hattributes entry hentry), hclasses⟩⟩

/-! ## The steps of a chain -/

/-- The axis of what follows some segments, of which the first has the axis `axis`. -/
def axisAfter (axis : Axis) (segments : List Segment) : Axis :=
  match segments.getLast? with
  | none => axis
  | some last => .ofRelation last.relation

/-- The last segment gives the last step. -/
theorem ofSegments_concat (axis : Axis) (before : List Segment) (last : Segment) :
    ofSegments axis (before ++ [last]) =
      ofSegments axis before ++ [stepOf (axisAfter axis before) last] := by
  induction before generalizing axis with
  | nil => rfl
  | cons segment before ih =>
    have haxis : axisAfter (.ofRelation segment.relation) before =
        axisAfter axis (segment :: before) := by
      cases before with
      | nil => rfl
      | cons second before =>
        rw [axisAfter, axisAfter, List.getLast?_cons_cons]
        cases hlast : (second :: before).getLast? with
        | none => simp at hlast
        | some => rfl
    rw [List.cons_append, ofSegments, ih, haxis]
    rfl

/-- The steps lead on from where the earlier ones lead to. -/
theorem leads_concat {tree : Tree} {before : List Segment} {last : Segment} {node : Address} :
    Leads tree (ofSegments .descendant (before ++ [last])) [] node ↔
      ∃ between, Leads tree (ofSegments .descendant before) [] between ∧
        (axisAfter .descendant before).Relates between node ∧ last.Satisfied tree node := by
  rw [ofSegments_concat, leads_append]
  constructor
  · intro hcase
    rcases hcase with ⟨between, hbefore, next, haxis, hfits, rfl⟩
    exact ⟨between, hbefore, haxis, fits_iff.1 hfits⟩
  · intro hcase
    rcases hcase with ⟨between, hbefore, haxis, hsatisfied⟩
    exact ⟨between, hbefore, node, haxis, fits_iff.2 hsatisfied, rfl⟩

/-- A node that is related to another by an axis has a parent. -/
theorem Axis.Relates.parent?_isSome {axis : Axis} {start node : Address}
    (h : axis.Relates start node) : node.parent?.isSome = true := by
  have hancestor : ∀ {above : Address}, above ∈ node.ancestors → node.parent?.isSome = true := by
    intro above habove
    obtain ⟨rest, hne, rfl⟩ := Address.mem_ancestors.1 habove
    refine Address.root_mem_ancestors_iff.1 (Address.mem_ancestors.2 ⟨above ++ rest, ?_, rfl⟩)
    exact List.append_ne_nil_of_right_ne_nil above hne
  cases axis with
  | child => exact Option.isSome_iff_exists.2 ⟨start, h⟩
  | descendant => exact hancestor h
  | descendantFromContext => exact hancestor h

/-- From the root, the steps of segments lead to the elements that the segments match.  The meaning
of segments is told from the last one, so that the induction takes segments off the end. -/
theorem leads_ofSegments_iff {tree : Tree} {segments : List Segment} (hne : segments ≠ [])
    {node : Address} :
    Leads tree (ofSegments .descendant segments) [] node ↔ Matches tree segments node := by
  induction segments using List.reverseRecOn generalizing node with
  | nil => exact absurd rfl hne
  | append_singleton before last ih =>
    rw [leads_concat]
    rcases List.eq_nil_or_concat before with rfl | ⟨earlier, previous, rfl⟩
    · rw [List.nil_append, matches_singleton]
      constructor
      · intro h
        obtain ⟨_, rfl, haxis, hlast⟩ := h
        exact ⟨haxis.parent?_isSome, hlast⟩
      · intro h
        exact ⟨[], rfl, Address.root_mem_ancestors_iff.2 h.1, h.2⟩
    · rw [List.concat_eq_append] at ih ⊢
      have hbefore : ∀ {between : Address},
          Leads tree (ofSegments .descendant (earlier ++ [previous])) [] between ↔
            Matches tree (earlier ++ [previous]) between :=
        ih (List.append_ne_nil_of_right_ne_nil _ (List.cons_ne_nil _ _))
      have haxis :
          axisAfter .descendant (earlier ++ [previous]) = .ofRelation previous.relation := by
        rw [axisAfter, List.getLast?_concat]
      have hrelated : ∀ axis : Axis,
          (∃ between, Matches tree (earlier ++ [previous]) between ∧
            axis.Relates between node ∧ last.Satisfied tree node) ↔
          node.parent?.isSome = true ∧ last.Satisfied tree node ∧
            ∃ between, axis.Relates between node ∧
              Matches tree (earlier ++ [previous]) between := by
        intro axis
        constructor
        · intro h
          obtain ⟨between, hmatches, hrelates, hlast⟩ := h
          exact ⟨hrelates.parent?_isSome, hlast, between, hrelates, hmatches⟩
        · intro h
          obtain ⟨-, hlast, between, hrelates, hmatches⟩ := h
          exact ⟨between, hmatches, hrelates, hlast⟩
      simp only [hbefore, haxis, matches_concat]
      cases previous.relation with
      | child =>
        rw [if_pos rfl]
        exact hrelated .child
      | descendant =>
        rw [if_neg (by decide)]
        exact hrelated .descendant

end TreeSelect.Path
