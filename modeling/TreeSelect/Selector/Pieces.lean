import TreeSelect.Text.Blank
import TreeSelect.Text.Word

/-!
# The pieces of a segment

A segment describes one element by up to six pieces, written one after another: a tag, an `#id`,
`.classes`, `[attribute]` groups, a `:pseudo-class` with an optional argument in parentheses, and the
child sign `>`, which blanks may precede.  `Pieces.scan` takes from the beginning of a text the
longest run of each piece in turn; a piece that is not there is the empty text.  Nothing is lost: the
pieces and the remainder give the text again (`text_append_rest`).
-/

namespace TreeSelect

/-! ## Characters of names -/

/-- The characters of an id or of a pseudo-class name. -/
def isNameChar (c : Char) : Bool := Text.isWordChar c || c == '-'

/-- The characters of a tag. -/
def isTagChar (c : Char) : Bool := isNameChar c || c == '*'

/-- The characters of a run of classes, the points between them included. -/
def isClassChar (c : Char) : Bool := isNameChar c || c == '.'

namespace Pieces

/-! ## One piece at a time

Each function returns the piece and the text after it. -/

/-- A sign and the characters after it that satisfy `accepts`, of which there must be one. -/
def takeSigned (sign : Char) (accepts : Char → Bool) : Text → Text × Text
  | [] => ([], [])
  | c :: rest =>
    if c = sign ∧ rest.takeWhile accepts ≠ [] then
      (c :: rest.takeWhile accepts, rest.dropWhile accepts)
    else ([], c :: rest)

/-- Groups in brackets; a group ends at its first closing bracket. -/
def takeGroups (s : Text) : Text × Text :=
  match s with
  | '[' :: rest =>
    match _h : Text.cut? ']' rest with
    | none => ([], '[' :: rest)
    | some (inside, after) =>
      ('[' :: inside ++ ']' :: (takeGroups after).1, (takeGroups after).2)
  | s => ([], s)
termination_by s.length
decreasing_by
  all_goals
    have := (Text.cut?_eq_some_iff.1 _h).1
    subst this
    simp
    omega

/-- The text up to the parenthesis that closes an argument, and the text after that parenthesis.
Inside the argument parentheses may be opened and closed again, but not two deep; `nested` says
whether one is open. -/
def takeArgument (nested : Bool) : Text → Option (Text × Text)
  | [] => none
  | c :: rest =>
    if c = ')' then
      if nested then (takeArgument false rest).map fun r => (c :: r.1, r.2) else some ([], rest)
    else if c = '(' then
      if nested then none else (takeArgument true rest).map fun r => (c :: r.1, r.2)
    else (takeArgument nested rest).map fun r => (c :: r.1, r.2)

/-- An argument in parentheses; none when it is not closed. -/
def argument? : Text → Option (Text × Text)
  | '(' :: rest => takeArgument false rest
  | _ => none

/-- A pseudo-class: its name and its argument. -/
def takePseudo (s : Text) : Option (Text × Option Text) × Text :=
  match takeSigned ':' isNameChar s with
  | ([], _) => (none, s)
  | (_ :: name, rest) =>
    match argument? rest with
    | none => (some (name, none), rest)
    | some (argument, after) => (some (name, some argument), after)

/-- Blanks and the child sign after them. -/
def takeChild (s : Text) : Text × Text :=
  match s.dropWhile Text.isBlank with
  | '>' :: rest => (s.takeWhile Text.isBlank ++ ['>'], rest)
  | _ => ([], s)

end Pieces

/-! ## All pieces -/

/-- The pieces of one segment as they are written. -/
structure Pieces where
  tag : Text
  id : Text
  classes : Text
  groups : Text
  pseudo : Option (Text × Option Text)
  child : Text
  deriving DecidableEq, Repr

namespace Pieces

/-- A pseudo-class as it is written. -/
def pseudoText : Option (Text × Option Text) → Text
  | none => []
  | some (name, none) => ':' :: name
  | some (name, some argument) => ':' :: name ++ '(' :: argument ++ [')']

/-- The pieces as they stand in the text. -/
def text (pieces : Pieces) : Text :=
  pieces.tag ++ pieces.id ++ pieces.classes ++ pieces.groups ++ pseudoText pieces.pseudo ++
    pieces.child

/-- Whether a piece other than the child sign is there. -/
def describes (pieces : Pieces) : Bool :=
  !(pieces.tag.isEmpty && pieces.id.isEmpty && pieces.classes.isEmpty && pieces.groups.isEmpty &&
    pieces.pseudo.isNone)

/-- The pieces at the beginning of a text, and the text after them. -/
def scan (s : Text) : Pieces × Text :=
  let tag := s.takeWhile isTagChar
  let (id, s) := takeSigned '#' isNameChar (s.dropWhile isTagChar)
  let (classes, s) := takeSigned '.' isClassChar s
  let (groups, s) := takeGroups s
  let (pseudo, s) := takePseudo s
  let (child, s) := takeChild s
  ({ tag, id, classes, groups, pseudo, child }, s)

/-! ## Nothing is lost -/

theorem takeSigned_append (sign : Char) (accepts : Char → Bool) (s : Text) :
    (takeSigned sign accepts s).1 ++ (takeSigned sign accepts s).2 = s := by
  cases s with
  | nil => rfl
  | cons c rest =>
    rw [takeSigned]
    split <;> simp

theorem takeGroups_append (s : Text) : (takeGroups s).1 ++ (takeGroups s).2 = s := by
  fun_induction takeGroups s with
  | case1 => simp
  | case2 rest inside after h ih =>
    rw [(Text.cut?_eq_some_iff.1 h).1]
    simp [ih]
  | case3 => simp

theorem takeArgument_eq_some {nested : Bool} {s argument after : Text}
    (h : takeArgument nested s = some (argument, after)) : s = argument ++ ')' :: after := by
  induction s generalizing nested argument with
  | nil => simp [takeArgument] at h
  | cons c rest ih =>
    rw [takeArgument] at h
    split at h
    · split at h
      · obtain ⟨⟨a, b⟩, hr, he⟩ := Option.map_eq_some_iff.1 h
        cases he
        simp [ih hr]
      · simp_all
    · split at h
      · split at h
        · simp at h
        · obtain ⟨⟨a, b⟩, hr, he⟩ := Option.map_eq_some_iff.1 h
          cases he
          simp [ih hr]
      · obtain ⟨⟨a, b⟩, hr, he⟩ := Option.map_eq_some_iff.1 h
        cases he
        simp [ih hr]

theorem argument?_eq_some {s argument after : Text} (h : argument? s = some (argument, after)) :
    s = '(' :: argument ++ ')' :: after := by
  unfold argument? at h
  split at h
  · simp [takeArgument_eq_some h]
  · simp at h

theorem takePseudo_append (s : Text) : pseudoText (takePseudo s).1 ++ (takePseudo s).2 = s := by
  have hs := takeSigned_append ':' isNameChar s
  unfold takePseudo
  split
  case h_1 => simp [pseudoText]
  case h_2 c name rest h =>
    have hc : c = ':' := by
      cases s with
      | nil => simp [takeSigned] at h
      | cons d s =>
        rw [takeSigned] at h
        split at h
        case isTrue hd => exact (List.cons.inj (Prod.mk.inj h).1).1.symm.trans hd.1
        case isFalse => simp at h
    subst hc
    rw [h] at hs
    split
    case h_1 => simpa [pseudoText] using hs
    case h_2 argument after ha =>
      rw [argument?_eq_some ha] at hs
      simpa [pseudoText] using hs

theorem takeChild_append (s : Text) : (takeChild s).1 ++ (takeChild s).2 = s := by
  have hs : s.takeWhile Text.isBlank ++ s.dropWhile Text.isBlank = s := List.takeWhile_append_dropWhile
  unfold takeChild
  split
  case h_1 rest h =>
    rw [h] at hs
    simpa using hs
  case h_2 => simp

/-- The pieces and the remainder give the text again. -/
theorem text_append_rest (s : Text) : (scan s).1.text ++ (scan s).2 = s := by
  simp only [scan, text, List.append_assoc, takeChild_append, takePseudo_append, takeGroups_append,
    takeSigned_append, List.takeWhile_append_dropWhile]

end Pieces
end TreeSelect
