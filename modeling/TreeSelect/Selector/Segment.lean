import TreeSelect.OrderedMap
import TreeSelect.Selector.Error
import TreeSelect.Selector.Pieces
import TreeSelect.Text.Letter
import TreeSelect.Text.Numeric

/-!
# Segments of a selector

A segment says what one element must be: `tag#id.class[attribute]:pseudo`, and with a child sign
after it that the next segment describes a child.  `Segment.parseAt` reads the segment at a byte
position of a selector, and `Segment.chain` all segments from the first to the last.

A part that the text does not mention is absent, which is not the same as empty.
-/

namespace TreeSelect

/-- How the element of the next segment stands to the element of this one. -/
inductive Relation
  | descendant
  | child
  deriving DecidableEq, Repr

/-- The path sign before the step that follows the relation. -/
def Relation.separator : Relation → Text
  | .descendant => "//".toList
  | .child => "/".toList

/-- A pseudo-class and what stands in its parentheses, if it has any. -/
structure Pseudo where
  name : Text
  argument : Option Text
  deriving DecidableEq, Repr

/-- The conditions on attributes: a name without a value asks that the attribute is there. -/
abbrev AttributeConditions := OrderedMap Text (Option Text)

/-- Bytes from `start` up to but not including `stop`. -/
structure Span where
  start : Nat
  stop : Nat
  deriving DecidableEq, Repr

/-- One segment, with its place in the selector it was read from. -/
structure Segment where
  tag : Text
  id : Option Text
  classes : Option (List Text)
  attributes : Option AttributeConditions
  pseudo : Option Pseudo
  relation : Relation
  matched : Text
  span : Span
  deriving DecidableEq, Repr

namespace AttributeConditions

/-! ## Attribute groups -/

/-- The characters of an attribute name. -/
def isAttributeNameChar (c : Char) : Bool :=
  Text.isLetter c || Text.isNumeric c || c == '_' || c == '-' || c == ':'

/-- Whether a text can name an attribute. -/
def isAttributeName (name : Text) : Bool := !name.isEmpty && name.all isAttributeNameChar

/-- A value without the quote marks around it, if both ends have the same one. -/
def unquote : Text → Text
  | [] => []
  | c :: rest =>
    if (c = '\'' ∨ c = '"') ∧ rest.getLast? = some c then rest.dropLast else c :: rest

/-- The text inside its outermost brackets. -/
def withoutBrackets : Text → Text
  | '[' :: rest => if rest.getLast? = some ']' then rest.dropLast else '[' :: rest
  | s => s

/-- The pieces between a closing bracket and the opening bracket next to it. -/
def splitGroups : Text → List Text
  | [] => [[]]
  | ']' :: '[' :: rest => [] :: splitGroups rest
  | c :: rest => (splitGroups rest).modifyHead (c :: ·)

/-- The name and the value that one condition asks for. -/
def condition (part : Text) : Text × Option Text :=
  match Text.cut? '=' part with
  | some (name, value) => (name.trim, some (unquote value.trim))
  | none => (part.trim, none)

/-- The conditions in the groups, or the first one that does not name an attribute. -/
def ofGroups (groups : Text) : Except Text AttributeConditions :=
  (splitGroups (withoutBrackets groups)).foldlM
    (fun conditions part =>
      let (name, value) := condition part
      if isAttributeName name then .ok (conditions.insert name value) else .error part)
    .empty

end AttributeConditions

namespace Segment

/-! ## Reading one segment -/

/-- The classes of a run such as `.a.b`; absent when it names none. -/
def classesOf (run : Text) : Option (List Text) :=
  match (run.split '.').filter (!·.isEmpty) with
  | [] => none
  | classes => some classes

/-- The segment whose pieces are `pieces`, found `start` bytes into `selector`. -/
def ofPieces (selector : Text) (start : Nat) (pieces : Pieces) : Except SelectorError Segment := do
  let attributes ←
    if pieces.groups.isEmpty then .ok none
    else
      match AttributeConditions.ofGroups pieces.groups with
      | .ok conditions => .ok (some conditions)
      | .error condition =>
        let before := pieces.tag ++ pieces.id ++ pieces.classes
        .error (.invalid selector (start + before.bytes) (.attribute condition))
  return {
    tag := if pieces.tag.isEmpty then ['*'] else pieces.tag
    id := if pieces.id.isEmpty then none else some (pieces.id.drop 1)
    classes := classesOf pieces.classes
    attributes
    pseudo := pieces.pseudo.map fun (name, argument) => ⟨name.lower, argument.map Text.trim⟩
    relation := if pieces.child.isEmpty then .descendant else .child
    matched := pieces.text
    span := ⟨start, start + pieces.text.bytes⟩ }

/-- The first segment of `rest`, which is what `selector` holds after `offset` bytes, together with
the text after the segment. -/
def read (selector : Text) (offset : Nat) (rest : Text) : Except SelectorError (Segment × Text) :=
  let start := offset + Text.bytes (rest.takeWhile Text.isBlank)
  match rest.dropWhile Text.isBlank with
  | [] => .error (.invalid selector start .empty)
  | first :: input =>
    let (pieces, after) := Pieces.scan (first :: input)
    if pieces.text.isEmpty then .error (.invalid selector start (.unexpected first))
    else if !pieces.describes then .error (.invalid selector start .childWithoutSegment)
    else (ofPieces selector start pieces).map (·, after)

/-- The segment at a byte position; blanks before it are skipped. -/
def parseAt (selector : Text) (offset : Nat) : Except SelectorError Segment :=
  match selector.dropBytes? offset with
  | none => .error (.invalid selector offset .outside)
  | some rest => (read selector offset rest).map Prod.fst

/-- The first segment of a selector. -/
def parse (selector : Text) : Except SelectorError Segment := parseAt selector 0

/-! ## Reading on -/

/-- The text after a segment is shorter than the text before it. -/
theorem length_lt_of_read {selector : Text} {offset : Nat} {rest after : Text} {segment : Segment}
    (h : read selector offset rest = .ok (segment, after)) : after.length < rest.length := by
  have hdrop : (rest.dropWhile Text.isBlank).length ≤ rest.length :=
    (List.dropWhile_suffix _).length_le
  simp only [read] at h
  split at h
  · simp at h
  case h_2 first input hinput =>
    split at h
    · simp at h
    · split at h
      · simp at h
      case isFalse hne _ =>
        have hafter : (Pieces.scan (first :: input)).2 = after := by
          cases hp : ofPieces selector (offset + Text.bytes (rest.takeWhile Text.isBlank))
              (Pieces.scan (first :: input)).1 with
          | error error => simp [hp, Except.map] at h
          | ok s =>
            simp only [hp, Except.map, Except.ok.injEq, Prod.mk.injEq] at h
            exact h.2
        have hpos : 0 < (Pieces.scan (first :: input)).1.text.length := by
          cases ht : (Pieces.scan (first :: input)).1.text with
          | nil => simp [ht] at hne
          | cons => simp
        rw [hinput, ← Pieces.text_append_rest (first :: input), List.length_append, hafter] at hdrop
        omega

/-- The segments of `rest`, which is what `selector` holds after `offset` bytes. -/
def chainFrom (selector : Text) (offset : Nat) (rest : Text) :
    Except SelectorError (List Segment) :=
  match _h : read selector offset rest with
  | .error error => .error error
  | .ok (segment, after) =>
    if after.all Text.isBlank then .ok [segment]
    else (chainFrom selector segment.span.stop after).map (segment :: ·)
termination_by rest.length
decreasing_by exact length_lt_of_read _h

/-- The segments of a selector without commas, from the first to the last. -/
def chain (selector : Text) : Except SelectorError (List Segment) := chainFrom selector 0 selector

end Segment
end TreeSelect
