import TreeSelect.Proofs.Path.Steps
import TreeSelect.Proofs.Selector.Chain

/-!
# Two walks along a selector

`Segment.chain` collects the segments of a selector, and `Path.ofSelector` makes a step of each one
while it walks, so that it can fail on the way.  `predicates_eq_ok_iff` says when one segment can be
made a step of and of which predicates, `stepsFrom_eq_ok_iff` carries this along the cursor, and
`ofSelector_eq_ok_iff` says of whole selectors when there is a path and which one it is.
-/

namespace TreeSelect.Path

/-! ## One segment -/

/-- The predicates of a segment without a pseudo-class. -/
def plainPredicates (segment : Segment) : List Predicate :=
  (segment.id.map Predicate.id).toList ++
    (segment.attributes.getD .empty).entries.map (fun entry => .attribute entry.1 entry.2) ++
      (segment.classes.getD []).map .hasClass

theorem predicates_eq {selector : Text} {segment : Segment} (h : segment.pseudo = none) :
    predicates selector segment = .ok (plainPredicates segment) := by
  rw [predicates, h]
  show Except.ok (plainPredicates segment ++ []) = _
  rw [List.append_nil]

/-- Whether the pseudo-class of a segment, if it has one, stands for a position. -/
def IsPlaced (segment : Segment) : Prop :=
  ∀ pseudo ∈ segment.pseudo, (Position.ofPseudo pseudo.name pseudo.argument).isOk = true

/-- The position that the pseudo-class of a segment stands for. -/
def positionOf (segment : Segment) : Option Position :=
  segment.pseudo.bind fun pseudo => (Position.ofPseudo pseudo.name pseudo.argument).toOption

theorem mem_positionOf {segment : Segment} {condition : Position} :
    condition ∈ positionOf segment ↔ ∃ pseudo ∈ segment.pseudo,
      Position.ofPseudo pseudo.name pseudo.argument = .ok condition := by
  rw [positionOf, Option.mem_bind_iff]
  refine exists_congr fun pseudo => and_congr_right fun _ => ?_
  cases Position.ofPseudo pseudo.name pseudo.argument with
  | ok other => simp [Except.toOption]
  | error error => simp [Except.toOption]

/-- All that a segment asks for, its position last. -/
def predicatesOf (segment : Segment) : List Predicate :=
  plainPredicates segment ++ (positionOf segment).toList.map .position

theorem predicatesOf_of_plain {segment : Segment} (h : segment.pseudo = none) :
    predicatesOf segment = plainPredicates segment := by
  simp [predicatesOf, positionOf, h]

/-- The predicates of a segment can be told exactly if its pseudo-class stands for a position. -/
theorem predicates_eq_ok_iff {selector : Text} {segment : Segment} {conditions : List Predicate} :
    predicates selector segment = .ok conditions ↔
      IsPlaced segment ∧ conditions = predicatesOf segment := by
  cases hpseudo : segment.pseudo with
  | none =>
    have hplaced : IsPlaced segment := by simp [IsPlaced, hpseudo]
    rw [predicates_eq hpseudo, predicatesOf_of_plain hpseudo, Except.ok.injEq]
    exact ⟨fun h => ⟨hplaced, h.symm⟩, fun h => h.2.symm⟩
  | some pseudo =>
    have hwhole : predicates selector segment =
        (positionPredicate selector segment.span.start pseudo).map
          fun position => plainPredicates segment ++ [position] := by
      simp only [predicates, hpseudo]
      cases positionPredicate selector segment.span.start pseudo <;> rfl
    rw [hwhole]
    simp only [positionPredicate, IsPlaced, predicatesOf, positionOf, hpseudo, Option.mem_def,
      Option.some.injEq, forall_eq', Option.bind_some]
    cases hposition : Position.ofPseudo pseudo.name pseudo.argument with
    | ok condition => simp [Except.map, Except.isOk, Except.toBool, Except.toOption, eq_comm]
    | error error => cases error <;> simp [Except.map, Except.isOk, Except.toBool]

/-- The steps of segments; the first one has the axis `axis`, and each other one that of the
relation which the segment before it carries. -/
def stepsOf (axis : Axis) (segments : List Segment) : List Step :=
  List.zipWith (fun axis segment => ⟨axis, segment.tag, predicatesOf segment⟩)
    (axis :: segments.map fun segment => .ofRelation segment.relation) segments

@[simp] theorem stepsOf_cons (axis : Axis) (segment : Segment) (later : List Segment) :
    stepsOf axis (segment :: later) =
      ⟨axis, segment.tag, predicatesOf segment⟩ :: stepsOf (.ofRelation segment.relation) later :=
  rfl

/-! ## Along the cursor -/

/-- Whether segments can be made a path of: no child sign is at their end, and their pseudo-classes
stand for positions. -/
structure MakePath (segments : List Segment) : Prop where
  last : ∃ last, segments.getLast? = some last ∧ last.relation = .descendant
  placed : ∀ segment ∈ segments, IsPlaced segment

theorem makePath_singleton {segment : Segment} :
    MakePath [segment] ↔ segment.relation = .descendant ∧ IsPlaced segment := by
  constructor
  · intro h
    obtain ⟨⟨last, hlast, hrelation⟩, hplaced⟩ := h
    cases hlast
    exact ⟨hrelation, hplaced segment List.mem_cons_self⟩
  · intro h
    refine ⟨⟨segment, rfl, h.1⟩, fun other hother => ?_⟩
    rw [List.mem_singleton.1 hother]
    exact h.2

theorem makePath_cons {segment : Segment} {later : List Segment} (hne : later ≠ []) :
    MakePath (segment :: later) ↔ IsPlaced segment ∧ MakePath later := by
  obtain ⟨second, others, rfl⟩ := List.exists_cons_of_ne_nil hne
  constructor
  · intro h
    obtain ⟨hlast, hplaced⟩ := h
    rw [List.getLast?_cons_cons] at hlast
    obtain ⟨hsegment, hlater⟩ := List.forall_mem_cons.1 hplaced
    exact ⟨hsegment, hlast, hlater⟩
  · intro h
    obtain ⟨hsegment, hlast, hlater⟩ := h
    rw [← List.getLast?_cons_cons (a := segment)] at hlast
    exact ⟨hlast, List.forall_mem_cons.2 ⟨hsegment, hlater⟩⟩

/-- From any place on, both walks read the same segments. -/
theorem stepsFrom_eq_ok_iff {selector : Text} {axis : Axis} {offset : Nat} {rest : Text}
    {steps : List Step} :
    stepsFrom selector axis offset rest = .ok steps ↔
      ∃ segments, Segment.chainFrom selector offset rest = .ok segments ∧ MakePath segments ∧
        steps = stepsOf axis segments := by
  -- both continue behind the segment that they have read, where less is left
  induction hlength : rest.length using Nat.strongRecOn generalizing axis offset rest steps with
  | ind length ih =>
    constructor
    · intro h
      obtain ⟨segment, after, conditions, hread, hconditions, hlast | hnext⟩ := stepsFrom_eq_ok h
      all_goals obtain ⟨hplaced, rfl⟩ := predicates_eq_ok_iff.1 hconditions
      · obtain ⟨hblank, hrelation, rfl⟩ := hlast
        exact ⟨[segment], Segment.chainFrom_last hread hblank,
          makePath_singleton.2 ⟨hrelation, hplaced⟩, rfl⟩
      · obtain ⟨hblank, others, hothers, rfl⟩ := hnext
        obtain ⟨later, hlater, hpath, rfl⟩ :=
          (ih after.length (hlength ▸ Segment.length_lt_of_read hread) rfl).1 hothers
        exact ⟨segment :: later, Segment.chainFrom_more hread hblank hlater,
          (makePath_cons (Segment.chainFrom_ne_nil hlater)).2 ⟨hplaced, hpath⟩, rfl⟩
    · intro h
      obtain ⟨segments, hchain, hpath, rfl⟩ := h
      obtain ⟨segment, after, hread, hlast | hnext⟩ := Segment.chainFrom_eq_ok hchain
      · obtain ⟨hblank, rfl⟩ := hlast
        obtain ⟨hrelation, hplaced⟩ := makePath_singleton.1 hpath
        exact stepsFrom_last hread (predicates_eq_ok_iff.2 ⟨hplaced, rfl⟩) hblank hrelation axis
      · obtain ⟨hblank, later, hlater, rfl⟩ := hnext
        obtain ⟨hplaced, hpath⟩ := (makePath_cons (Segment.chainFrom_ne_nil hlater)).1 hpath
        have hothers : stepsFrom selector (.ofRelation segment.relation) segment.span.stop after =
            .ok (stepsOf (.ofRelation segment.relation) later) :=
          (ih after.length (hlength ▸ Segment.length_lt_of_read hread) rfl).2
            ⟨later, hlater, hpath, rfl⟩
        rw [stepsFrom_more hread (predicates_eq_ok_iff.2 ⟨hplaced, rfl⟩) hblank, hothers]
        rfl

/-! ## Whole selectors -/

/-- A selector has a path exactly if its segments can be read, the last one carries no child sign and
each pseudo-class stands for a position.  The path then has one step for each segment, with its tag:
the first step has the axis that was asked for, each other one the axis of the relation that the
segment before it carries, and the predicates are the id, the attributes, the classes and the
position of the segment. -/
theorem ofSelector_eq_ok_iff (selector : Text) (axis : Axis) (path : Path) :
    ofSelector selector axis = .ok path ↔
      ∃ segments, Segment.chain selector = .ok segments ∧
        (∃ last, segments.getLast? = some last ∧ last.relation = .descendant) ∧
          (∀ segment ∈ segments, ∀ pseudo ∈ segment.pseudo,
            (Position.ofPseudo pseudo.name pseudo.argument).isOk = true) ∧
            path.steps = stepsOf axis segments := by
  rw [ofSelector_eq_ok, stepsFrom_eq_ok_iff]
  constructor
  · intro h
    obtain ⟨segments, hchain, ⟨hlast, hplaced⟩, hsteps⟩ := h
    exact ⟨segments, hchain, hlast, hplaced, hsteps⟩
  · intro h
    obtain ⟨segments, hchain, hlast, hplaced, hsteps⟩ := h
    exact ⟨segments, hchain, ⟨hlast, hplaced⟩, hsteps⟩

end TreeSelect.Path
