import TreeSelect.Path.OfSelector
import TreeSelect.Proofs.Attempt

/-!
# The steps of a selector

`stepsFrom_eq_ok` takes one round of `Path.stepsFrom` apart: the segment it reads, the predicates of
that segment, and what follows; `stepsFrom_eq_error` does so for a walk that fails.  Two facts come
from the first.

* The axis given for the first step reaches that step and nothing else
  (`stepsFrom_eq_withFirstAxis`, `axis_of_stepsFrom`).
* From the context node a branch compiles to the text from the root behind a point, and it fails
  there with the same error (`pathText_descendantFromContext`).
-/

namespace TreeSelect.Path

theorem ofSelector_eq_ok {selector : Text} {axis : Axis} {path : Path} :
    ofSelector selector axis = .ok path ↔
      stepsFrom selector axis 0 selector = .ok path.steps := by
  unfold ofSelector
  rw [Attempt.map_eq_ok]
  constructor
  · intro h
    obtain ⟨steps, hsteps, rfl⟩ := h
    exact hsteps
  · intro h
    exact ⟨path.steps, h, rfl⟩

/-- One round of the walk.  The last segment has no child sign, and any other one decides the axis
of the step after it. -/
theorem stepsFrom_eq_ok {selector : Text} {axis : Axis} {offset : Nat} {rest : Text}
    {steps : List Step} (h : stepsFrom selector axis offset rest = .ok steps) :
    ∃ segment after conditions,
      Segment.read selector offset rest = .ok (segment, after) ∧
        predicates selector segment = .ok conditions ∧
        (after.all Text.isBlank = true ∧ segment.relation = .descendant ∧
            steps = [⟨axis, segment.tag, conditions⟩] ∨
          after.all Text.isBlank = false ∧
            ∃ others,
              stepsFrom selector (.ofRelation segment.relation) segment.span.stop after =
                  .ok others ∧
                steps = ⟨axis, segment.tag, conditions⟩ :: others) := by
  rw [stepsFrom.eq_def] at h
  split at h
  case h_1 => cases h
  case h_2 segment after hread =>
    split at h
    case h_1 => cases h
    case h_2 conditions hconditions =>
      refine ⟨segment, after, conditions, hread, hconditions, ?_⟩
      split at h
      case isTrue hblank =>
        left
        split at h
        case h_1 => cases h
        case h_2 hrelation =>
          cases h
          exact ⟨hblank, hrelation, rfl⟩
      case isFalse hblank =>
        right
        obtain ⟨others, hothers, hsteps⟩ := Attempt.map_eq_ok.1 h
        exact ⟨by simpa using hblank, others, hothers, hsteps.symm⟩

/-- One round of a walk that fails.  The segment, its predicates or the walk from there on fails, or
the last segment has a child sign. -/
theorem stepsFrom_eq_error {selector : Text} {axis : Axis} {offset : Nat} {rest : Text}
    {error : SelectorError} (h : stepsFrom selector axis offset rest = .error error) :
    Segment.read selector offset rest = .error error ∨
      ∃ segment after, Segment.read selector offset rest = .ok (segment, after) ∧
        (predicates selector segment = .error error ∨
          after.all Text.isBlank = true ∧ segment.relation = .child ∧
              error = .invalid selector segment.span.stop .childAtEnd ∨
            after.all Text.isBlank = false ∧
              stepsFrom selector (.ofRelation segment.relation) segment.span.stop after =
                .error error) := by
  rw [stepsFrom.eq_def] at h
  split at h
  case h_1 other hread =>
    cases h
    exact .inl hread
  case h_2 segment after hread =>
    refine .inr ⟨segment, after, hread, ?_⟩
    split at h
    case h_1 other hconditions =>
      cases h
      exact .inl hconditions
    case h_2 =>
      split at h
      case isTrue hblank =>
        split at h
        case h_1 hrelation =>
          cases h
          exact .inr (.inl ⟨hblank, hrelation, rfl⟩)
        case h_2 => cases h
      case isFalse hblank =>
        exact .inr (.inr ⟨by simpa using hblank, Attempt.map_eq_error.1 h⟩)

/-- The last round of the walk, behind which only blanks follow. -/
theorem stepsFrom_last {selector : Text} {offset : Nat} {rest after : Text} {segment : Segment}
    {conditions : List Predicate}
    (hread : Segment.read selector offset rest = .ok (segment, after))
    (hconditions : predicates selector segment = .ok conditions)
    (hblank : after.all Text.isBlank = true) (hrelation : segment.relation = .descendant)
    (axis : Axis) :
    stepsFrom selector axis offset rest = .ok [⟨axis, segment.tag, conditions⟩] := by
  rw [stepsFrom.eq_def, hread]
  simp only [hconditions, hblank, hrelation, if_true]

/-- A round of the walk that more follows. -/
theorem stepsFrom_more {selector : Text} {offset : Nat} {rest after : Text} {segment : Segment}
    {conditions : List Predicate}
    (hread : Segment.read selector offset rest = .ok (segment, after))
    (hconditions : predicates selector segment = .ok conditions)
    (hblank : after.all Text.isBlank = false) (axis : Axis) :
    stepsFrom selector axis offset rest =
      (stepsFrom selector (.ofRelation segment.relation) segment.span.stop after).map
        (⟨axis, segment.tag, conditions⟩ :: ·) := by
  rw [stepsFrom.eq_def, hread]
  simp only [hconditions, hblank]
  rfl

/-- A selector with a path has a first step, on the axis that was given for it. -/
theorem axis_of_stepsFrom {selector : Text} {axis : Axis} {offset : Nat} {rest : Text}
    {steps : List Step} (h : stepsFrom selector axis offset rest = .ok steps) :
    ∃ first others, steps = first :: others ∧ first.axis = axis := by
  obtain ⟨segment, after, conditions, -, -, hlast | hnext⟩ := stepsFrom_eq_ok h
  · exact ⟨_, _, hlast.2.2, rfl⟩
  · obtain ⟨-, others, -, hsteps⟩ := hnext
    exact ⟨_, _, hsteps, rfl⟩

/-- No step but the first starts at the context node. -/
theorem axis_tail_of_stepsFrom {selector : Text} {axis : Axis} {offset : Nat} {rest : Text}
    {steps : List Step} (h : stepsFrom selector axis offset rest = .ok steps) :
    ∀ step ∈ steps.tail, step.axis ≠ .descendantFromContext := by
  induction hlength : rest.length using Nat.strongRecOn generalizing axis offset rest steps with
  | ind length ih =>
    obtain ⟨segment, after, conditions, hread, -, hlast | hnext⟩ := stepsFrom_eq_ok h
    · obtain ⟨-, -, rfl⟩ := hlast
      intro step hstep
      cases hstep
    · obtain ⟨-, others, hothers, rfl⟩ := hnext
      obtain ⟨first, more, rfl, haxis⟩ := axis_of_stepsFrom hothers
      have hmore := ih after.length (hlength ▸ Segment.length_lt_of_read hread) hothers rfl
      intro step hstep
      rcases List.mem_cons.1 hstep with rfl | hstep
      · rw [haxis]
        cases segment.relation <;> decide
      · exact hmore step hstep

/-! ## The axis of the first step -/

/-- The steps with another axis for the first of them. -/
def withFirstAxis (axis : Axis) : List Step → List Step
  | [] => []
  | step :: steps => { step with axis } :: steps

/-- The axis given for the first step reaches that step and nothing else, errors included. -/
theorem stepsFrom_eq_withFirstAxis (selector : Text) (axis : Axis) (offset : Nat) (rest : Text) :
    stepsFrom selector axis offset rest =
      (stepsFrom selector .descendant offset rest).map (withFirstAxis axis) := by
  rw [stepsFrom.eq_def selector axis, stepsFrom.eq_def selector .descendant]
  split
  case h_1 => rfl
  case h_2 segment after _ =>
    split
    case h_1 => rfl
    case h_2 =>
      split
      case isTrue => split <;> rfl
      case isFalse =>
        cases stepsFrom selector (.ofRelation segment.relation) segment.span.stop after <;> rfl

/-- Started at the context node, a path is written with a point before it. -/
theorem text_withFirstAxis (first : Step) (others : List Step) (haxis : first.axis = .descendant) :
    Path.text ⟨withFirstAxis .descendantFromContext (first :: others)⟩ =
      '.' :: Path.text ⟨first :: others⟩ := by
  simp [withFirstAxis, Path.text, Step.text, Axis.text, haxis]

end TreeSelect.Path

namespace TreeSelect

/-- From the context node a branch compiles to the text from the root behind a point, and it fails
there with the same error. -/
theorem pathText_descendantFromContext (selector : Text) :
    pathText selector .descendantFromContext =
      (pathText selector .descendant).map ('.' :: ·) := by
  unfold pathText Path.ofSelector
  rw [Path.stepsFrom_eq_withFirstAxis]
  cases hsteps : Path.stepsFrom selector .descendant 0 selector with
  | error error => rfl
  | ok steps =>
    obtain ⟨first, others, rfl, haxis⟩ := Path.axis_of_stepsFrom hsteps
    have htext := Path.text_withFirstAxis first others haxis
    exact congrArg Except.ok htext

end TreeSelect
