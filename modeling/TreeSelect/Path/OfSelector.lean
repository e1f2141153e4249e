import TreeSelect.Path.Basic
import TreeSelect.Selector.PseudoClass
import TreeSelect.Selector.Segment

/-!
# The path of a selector

Each segment of a selector without commas becomes a step.  The axis of a step comes from the segment
before it, and its predicates are the segment's id, attributes, classes and position, in this order.
-/

namespace TreeSelect.Path

/-- The predicate for the pseudo-class of a segment; what is wrong with its argument is reported at
the beginning of the segment. -/
def positionPredicate (selector : Text) (start : Nat) (pseudo : Pseudo) :
    Except SelectorError Predicate :=
  match Position.ofPseudo pseudo.name pseudo.argument with
  | .ok condition => .ok (.position condition)
  | .error (.invalid _ _ fault) => .error (.invalid selector start fault)
  | .error error => .error error

/-- The predicates of a segment. -/
def predicates (selector : Text) (segment : Segment) : Except SelectorError (List Predicate) := do
  let id := (segment.id.map Predicate.id).toList
  let attributes := (segment.attributes.getD .empty).entries.map fun entry =>
    Predicate.attribute entry.1 entry.2
  let classes := (segment.classes.getD []).map Predicate.hasClass
  let position ← match segment.pseudo with
    | none => .ok []
    | some pseudo => (positionPredicate selector segment.span.start pseudo).map ([·])
  return id ++ attributes ++ classes ++ position

/-- The axis of the step that follows a segment with this relation. -/
def Axis.ofRelation : Relation → Axis
  | .descendant => .descendant
  | .child => .child

/-- The steps of `rest`, which is what `selector` holds after `offset` bytes; `axis` is the axis of
the first of them. -/
def stepsFrom (selector : Text) (axis : Axis) (offset : Nat) (rest : Text) :
    Except SelectorError (List Step) :=
  match _h : Segment.read selector offset rest with
  | .error error => .error error
  | .ok (segment, after) =>
    match predicates selector segment with
    | .error error => .error error
    | .ok predicates =>
      let step : Step := ⟨axis, segment.tag, predicates⟩
      if after.all Text.isBlank then
        match segment.relation with
        | .child => .error (.invalid selector segment.span.stop .childAtEnd)
        | .descendant => .ok [step]
      else
        (stepsFrom selector (.ofRelation segment.relation) segment.span.stop after).map (step :: ·)
termination_by rest.length
decreasing_by exact Segment.length_lt_of_read _h

/-- The path of a selector without commas, whose first step has the given axis. -/
def ofSelector (selector : Text) (axis : Axis) : Except SelectorError Path :=
  (stepsFrom selector axis 0 selector).map Path.mk

end TreeSelect.Path

namespace TreeSelect

/-- The XPath expression of a selector without commas. -/
def pathText (selector : Text) (axis : Path.Axis) : Except SelectorError Text :=
  (Path.ofSelector selector axis).map Path.text

/-- The predicate that a pseudo-class stands for. -/
def pseudoText (name : Text) (argument : Option Text) : Except SelectorError Text :=
  (Position.ofPseudo name argument).map Position.text

end TreeSelect
