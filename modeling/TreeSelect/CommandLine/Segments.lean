import TreeSelect.Json.Writer
import TreeSelect.Selector.Segment

/-!
# The command `segments`

The segments of a selector are shown with all their parts.
-/

namespace TreeSelect.CommandLine

/-- A part of a segment on a line of its own. -/
def partLine (part : Text) : Text := "    ".toList ++ part

/-- A condition on an attribute. -/
def conditionLine (condition : Text × Option Text) : Text :=
  let name := '[' :: condition.1 ++ [']']
  partLine <| match condition.2 with
    | none => name
    | some value => name ++ " = ".toList ++ Text.quoted value

/-- A pseudo-class. -/
def pseudoLine (pseudo : Pseudo) : Text :=
  partLine <| match pseudo.argument with
    | none => ':' :: pseudo.name
    | some argument => ':' :: pseudo.name ++ '(' :: argument ++ [')']

/-- What follows a segment. -/
def relationLine : Relation → Text
  | .child => partLine "next: child (>)".toList
  | .descendant => partLine "next: descendant".toList

/-- A segment as lines. -/
def segmentLines (segment : Segment) : List Text :=
  [segment.matched, partLine ("tag = ".toList ++ segment.tag)] ++
    (segment.id.map fun id => partLine ("id = ".toList ++ id)).toList ++
    (segment.classes.map fun classes =>
      partLine ("classes = ".toList ++ ", ".toList.intercalate classes)).toList ++
    (segment.attributes.getD .empty).entries.map conditionLine ++
    (segment.pseudo.map pseudoLine).toList ++
    [relationLine segment.relation]

/-- The name of a relation. -/
def relationName : Relation → Text
  | .descendant => "descendant".toList
  | .child => "child".toList

/-- A segment as a JSON value. -/
def segmentJson (segment : Segment) : Json :=
  .object [
    ("tag".toList, .string segment.tag),
    ("id".toList, .ofText? segment.id),
    ("classes".toList, match segment.classes with
      | none => .null
      | some classes => .array (classes.map .string)),
    ("attributes".toList, match segment.attributes with
      | none => .null
      | some conditions =>
        .object (conditions.entries.map fun entry => (entry.1, .ofText? entry.2))),
    ("pseudo".toList, match segment.pseudo with
      | none => .null
      | some pseudo => .object [
        ("name".toList, .string pseudo.name),
        ("expr".toList, .ofText? pseudo.argument)]),
    ("relation".toList, .string (relationName segment.relation)),
    ("matched_text".toList, .string segment.matched),
    ("span".toList, .object [
      ("start".toList, .ofNat segment.span.start),
      ("end".toList, .ofNat segment.span.stop)])]

end TreeSelect.CommandLine
