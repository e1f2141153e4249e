import TreeSelect.Proofs.Path.Steps
import TreeSelect.Proofs.Selector.Written

/-!
# Places of faults

A selector that has no path is at fault at a byte position.  `Fault.FitsAt` says, for each fault, what
stands there: the character that the message quotes, the sign or the condition that it names, or the
segment whose pseudo-class lacks its argument.

* `Fault.FitsAt.reason_fits`: what is said in the wording of a fault is true of its place then.
* `read_fits`: what is wrong with one segment.
* `stepsFrom_fits` is the induction over the segments.  Behind each segment that another one follows
  something is left that is not blank, so that only a selector of blanks is reported as empty.
* `pathText_fits`: every error of a selector is about that selector, and the fault fits the place.
-/

namespace TreeSelect

/-- Whether a pseudo-class is without the argument that it needs. -/
def Pseudo.LacksArgument (pseudo : Pseudo) : Prop :=
  pseudo.name = "nth-child".toList ∧ (pseudo.argument.getD []).trim = []

/-- Whether a fault is what is wrong at the place between two parts of a selector. -/
def Fault.FitsAt (before behind : Text) : Fault → Prop
  | .outside => False
  | .empty => before.all Text.isBlank = true ∧ behind = []
  | .unexpected found => behind.head? = some found
  | .childWithoutSegment => behind.head? = some '>'
  | .childAtEnd => before.getLast? = some '>' ∧ behind.all Text.isBlank = true
  | .attribute condition =>
    behind.head? = some '[' ∧ '[' :: condition ++ [']'] <:+: behind ∧
      AttributeConditions.isAttributeName (AttributeConditions.condition condition).1 = false
  | .missingArgument =>
    ∃ segment pseudo, Segment.parse behind = .ok segment ∧ segment.pseudo = some pseudo ∧
      pseudo.LacksArgument

/-- Whether an error is about a selector and, if it names a place, the fault fits that place.  No
error of a selector is about another argument. -/
def SelectorError.FitsIn (selector : Text) : SelectorError → Prop
  | .invalid whole offset fault => whole = selector ∧ ∃ before behind,
      selector = before ++ behind ∧ before.bytes = offset ∧ fault.FitsAt before behind
  | .unknownPseudoClass _ => True
  | .invalidArgument _ => False

/-! ## Wording -/

/-- Texts that begin differently are not the beginnings of one text. -/
theorem Text.not_prefix_of_take {s t : Text} (n : Nat) (hs : n ≤ s.length) (ht : n ≤ t.length)
    (hne : s.take n ≠ t.take n) (more : Text) : ¬ s <+: t ++ more := by
  rintro ⟨rest, hrest⟩
  have htake := congrArg (List.take n) hrest
  rw [List.take_append_of_le_length hs, List.take_append_of_le_length ht] at htake
  exact hne htake

/-- Whether what the wording of a fault says of characters is true at the place between two parts of a
selector. -/
structure Fault.ReasonFits (before behind reason : Text) : Prop where
  unexpected : "unexpected ".toList <+: reason →
    ∃ c, behind.head? = some c ∧ reason = "unexpected ".toList ++ Text.quotedChar c
  unsupported : "unsupported attribute expression".toList <+: reason → behind.head? = some '['
  signFirst : "'>' must follow a selector".toList <+: reason → behind.head? = some '>'
  signLast : "'>' must be followed by a selector".toList <+: reason →
    before.getLast? = some '>' ∧ behind.all Text.isBlank = true

/-- A fault that fits its place is put into words that are true of the place. -/
theorem Fault.FitsAt.reason_fits {before behind : Text} {fault : Fault}
    (h : fault.FitsAt before behind) : ReasonFits before behind fault.reason := by
  match fault, h with
  | .empty, _ => constructor <;> exact fun hreason => absurd hreason (by decide)
  | .unexpected found, h =>
    have hother : ∀ {s : Text}, 3 ≤ s.length → s.take 3 ≠ "unexpected ".toList.take 3 →
        ¬ s <+: (Fault.unexpected found).reason :=
      fun hs hne => Text.not_prefix_of_take 3 hs (by decide) hne _
    refine ⟨fun _ => ⟨found, h, rfl⟩, ?_, ?_, ?_⟩
    all_goals exact fun hreason => absurd hreason (hother (by decide) (by decide))
  | .childWithoutSegment, h =>
    refine ⟨?_, ?_, fun _ => h, ?_⟩
    all_goals exact fun hreason => absurd hreason (by decide)
  | .childAtEnd, h =>
    refine ⟨?_, ?_, ?_, fun _ => h⟩
    all_goals exact fun hreason => absurd hreason (by decide)
  | .attribute condition, h =>
    have hother : ∀ {s : Text}, 3 ≤ s.length → s.take 3 ≠ "unsupported ".toList.take 3 →
        ¬ s <+: (Fault.attribute condition).reason := by
      intro s hs hne
      have hreason : (Fault.attribute condition).reason =
          "unsupported attribute expression [".toList ++ (condition ++ "]".toList) :=
        List.append_assoc _ _ _
      rw [hreason]
      exact Text.not_prefix_of_take 3 hs (by decide) hne _
    refine ⟨?_, fun _ => h.1, ?_, ?_⟩
    all_goals exact fun hreason => absurd hreason (hother (by decide) (by decide))
  | .missingArgument, _ => constructor <;> exact fun hreason => absurd hreason (by decide)

/-! ## Pieces -/

namespace Pieces

theorem text_of_not_describes {pieces : Pieces} (h : pieces.describes = false) :
    pieces.text = pieces.child := by
  obtain ⟨tag, id, classes, groups, pseudo, child⟩ := pieces
  simp only [describes, Bool.not_eq_false', Bool.and_eq_true, List.isEmpty_iff,
    Option.isNone_iff_eq_none] at h
  obtain ⟨⟨⟨⟨rfl, rfl⟩, rfl⟩, rfl⟩, rfl⟩ := h
  rfl

/-- Pieces that describe nothing are a child sign, before which no blanks are left. -/
theorem head_of_not_describes {s : Text} (hs : ∀ c ∈ s.head?, Text.isBlank c = false)
    (hne : (scan s).1.text ≠ []) (h : (scan s).1.describes = false) : s.head? = some '>' := by
  have hsplit := text_append_rest s
  rw [text_of_not_describes h] at hsplit hne
  rcases (isWritten_scan s).child with hnil | ⟨blanks, hblanks, hchild⟩
  · exact absurd hnil hne
  · rw [hchild] at hsplit
    cases blanks with
    | nil =>
      rw [← hsplit]
      rfl
    | cons blank blanks =>
      have hblank := hs blank (by rw [← hsplit]; rfl)
      rw [hblanks blank List.mem_cons_self] at hblank
      cases hblank

/-- A condition that is at fault stands in brackets among the groups, and these begin with a
bracket. -/
theorem infix_groups {s condition : Text} (hne : (scan s).1.groups ≠ [])
    (h : AttributeConditions.ofGroups (scan s).1.groups = .error condition) :
    (scan s).1.groups.head? = some '[' ∧ '[' :: condition ++ [']'] <:+: (scan s).1.groups ∧
      AttributeConditions.isAttributeName (AttributeConditions.condition condition).1 = false := by
  obtain ⟨parts, hparts, hgroups⟩ := (isWritten_scan s).groups
  obtain ⟨hmem, hname⟩ := AttributeConditions.mem_of_ofGroups_eq_error h
  rw [hgroups] at hne hmem ⊢
  rw [AttributeConditions.splitGroups_bracketed (fun hnil => hne (bracketed_eq_nil.2 hnil)) hparts]
    at hmem
  refine ⟨?_, ?_, hname⟩
  · obtain ⟨c, rest, hcons⟩ := List.exists_cons_of_ne_nil hne
    have hc := head_bracketed parts c (by rw [hcons]; rfl)
    rw [hcons, hc]
    rfl
  · have hwritten := List.mem_map_of_mem (f := fun part => '[' :: part ++ [']']) hmem
    exact List.infix_of_mem_flatten hwritten

end Pieces

/-! ## One segment -/

namespace Segment

/-- What is wrong with the conditions of a segment is wrong where its groups begin. -/
theorem ofPieces_fits {selector front s : Text} {error : SelectorError}
    (hselector : selector = front ++ s)
    (h : ofPieces selector front.bytes (Pieces.scan s).1 = .error error) :
    error.FitsIn selector := by
  obtain ⟨hne, condition, hcondition, rfl⟩ := ofPieces_eq_error h
  obtain ⟨hhead, hinfix, hname⟩ := Pieces.infix_groups hne hcondition
  have hpieces := Pieces.text_append_rest s
  generalize Pieces.scan s = scanned at *
  obtain ⟨pieces, after⟩ := scanned
  refine ⟨rfl, front ++ (pieces.tag ++ pieces.id ++ pieces.classes),
    pieces.groups ++ (Pieces.pseudoText pieces.pseudo ++ (pieces.child ++ after)),
    ?_, Text.bytes_append _ _, ?_, ?_, hname⟩
  · rw [hselector, ← hpieces, Pieces.text]
    simp only [List.append_assoc]
  · rw [List.head?_append, hhead]
    rfl
  · exact hinfix.trans (List.prefix_append _ _).isInfix

/-- What is wrong with a segment is wrong where the fault says. -/
theorem read_fits {selector front rest : Text} {error : SelectorError}
    (hselector : selector = front ++ rest)
    (hleft : front.all Text.isBlank = true ∨ rest.all Text.isBlank = false)
    (h : read selector front.bytes rest = .error error) : error.FitsIn selector := by
  have hrest : rest.takeWhile Text.isBlank ++ rest.dropWhile Text.isBlank = rest :=
    List.takeWhile_append_dropWhile
  simp only [read] at h
  rw [← Text.bytes_append] at h
  split at h
  case h_1 hnil =>
    cases h
    rw [hnil, List.append_nil] at hrest
    have hblank : rest.all Text.isBlank = true := hrest ▸ List.all_takeWhile
    have hfront : front.all Text.isBlank = true := hleft.resolve_right (by simp [hblank])
    refine ⟨rfl, selector, [], (List.append_nil selector).symm, ?_, ?_, rfl⟩
    · rw [hselector, hrest]
    · rw [hselector, List.all_append, hfront, hblank]
      rfl
  case h_2 first input hinput =>
    have hsplit : selector = front ++ rest.takeWhile Text.isBlank ++ first :: input := by
      rw [hselector, List.append_assoc, ← hinput, hrest]
    split at h
    case isTrue =>
      cases h
      exact ⟨rfl, _, _, hsplit, rfl, rfl⟩
    case isFalse htext =>
      split at h
      case isTrue hdescribes =>
        cases h
        refine ⟨rfl, _, _, hsplit, rfl, Pieces.head_of_not_describes ?_ ?_ ?_⟩
        · rw [← hinput]
          exact Text.head_dropWhile
        · simpa using htext
        · simpa using hdescribes
      case isFalse =>
        exact ofPieces_fits hsplit (Attempt.map_eq_error.1 h)

/-- The text of a segment with a child sign ends in that sign. -/
theorem getLast?_matched {selector : Text} {offset : Nat} {rest after : Text} {segment : Segment}
    (h : read selector offset rest = .ok (segment, after)) (hrelation : segment.relation = .child) :
    segment.matched.getLast? = some '>' := by
  obtain ⟨pieces, attributes, hscan, -, -, rfl⟩ := read_eq_ok_iff.1 h
  have hchild := (Pieces.isWritten_scan (rest.dropWhile Text.isBlank)).child
  rw [hscan] at hchild
  rcases hchild with hnil | ⟨blanks, -, hsign⟩
  · have hnone : pieces.child = [] := hnil
    simp [made, hnone] at hrelation
  · show pieces.text.getLast? = _
    rw [Pieces.text, hsign, ← List.append_assoc, List.getLast?_concat]

/-- Where a segment begins, it is read. -/
theorem parse_of_read {selector : Text} {offset : Nat} {blanks behind after : Text}
    {segment : Segment} (hblanks : ∀ c ∈ blanks, Text.isBlank c = true)
    (h : read selector offset (blanks ++ behind) = .ok (segment, after)) :
    ∃ span, parse behind = .ok { segment with span } := by
  rw [read_skip hblanks] at h
  obtain ⟨span, hread⟩ := read_anywhere h behind 0
  exact ⟨span, parse_eq_ok_iff.2 ⟨after, hread⟩⟩

end Segment

/-! ## Pseudo-classes -/

theorem PseudoClass.ofName_eq_error {name : Text} {error : SelectorError}
    (h : ofName name = .error error) : error = .unknownPseudoClass name := by
  unfold ofName at h
  split_ifs at h
  cases h
  rfl

theorem PseudoClass.ofName_eq_nthChild {name : Text} (h : ofName name = .ok .nthChild) :
    name = "nth-child".toList := by
  unfold ofName at h
  split_ifs at h with hfirst hlast hnth
  all_goals cases h
  exact hnth

/-- A pseudo-class without positions is not known, or it lacks its argument. -/
theorem Position.ofPseudo_eq_error {pseudo : Pseudo} {error : SelectorError}
    (h : ofPseudo pseudo.name pseudo.argument = .error error) :
    error = .unknownPseudoClass pseudo.name ∨
      pseudo.LacksArgument ∧ error = .invalid (':' :: pseudo.name) 0 .missingArgument := by
  rcases Attempt.bind_eq_error.1 h with hunknown | ⟨known, hknown, h⟩
  · exact .inl (PseudoClass.ofName_eq_error hunknown)
  · cases known with
    | firstChild => cases h
    | lastChild => cases h
    | nthChild =>
      dsimp only at h
      split at h
      case h_1 hblank =>
        cases h
        exact .inr ⟨⟨PseudoClass.ofName_eq_nthChild hknown, hblank⟩, rfl⟩
      case h_2 => cases h

namespace Path

/-- What a pseudo-class lacks is reported at the beginning of its segment. -/
theorem positionPredicate_eq_error {selector : Text} {start : Nat} {pseudo : Pseudo}
    {error : SelectorError} (h : positionPredicate selector start pseudo = .error error) :
    error = .unknownPseudoClass pseudo.name ∨
      pseudo.LacksArgument ∧ error = .invalid selector start .missingArgument := by
  unfold positionPredicate at h
  split at h
  case h_1 => cases h
  case h_2 hcause =>
    cases h
    rcases Position.ofPseudo_eq_error hcause with hunknown | ⟨hlacks, hcause⟩
    · cases hunknown
    · cases hcause
      exact .inr ⟨hlacks, rfl⟩
  case h_3 hnot hcause =>
    cases h
    rcases Position.ofPseudo_eq_error hcause with hunknown | ⟨-, hcause⟩
    · exact .inl hunknown
    · exact absurd hcause (hnot _ _ _)

/-- Only the pseudo-class of a segment can be at fault in its predicates. -/
theorem predicates_eq_error {selector : Text} {segment : Segment} {error : SelectorError}
    (h : predicates selector segment = .error error) :
    ∃ pseudo, segment.pseudo = some pseudo ∧
      positionPredicate selector segment.span.start pseudo = .error error := by
  unfold predicates at h
  cases hpseudo : segment.pseudo with
  | none =>
    rw [hpseudo] at h
    cases h
  | some pseudo =>
    refine ⟨pseudo, rfl, ?_⟩
    rw [hpseudo] at h
    rcases Attempt.bind_eq_error.1 h with hposition | ⟨position, -, hdone⟩
    · exact Attempt.map_eq_error.1 hposition
    · cases hdone

/-! ## All segments -/

/-- What is wrong with the predicates of a segment is wrong where the segment begins. -/
theorem predicates_fits {selector front rest after : Text} {segment : Segment}
    {error : SelectorError} (hselector : selector = front ++ rest)
    (hread : Segment.read selector front.bytes rest = .ok (segment, after))
    (h : predicates selector segment = .error error) : error.FitsIn selector := by
  obtain ⟨pseudo, hpseudo, hposition⟩ := predicates_eq_error h
  rcases positionPredicate_eq_error hposition with rfl | ⟨hlacks, rfl⟩
  · trivial
  · obtain ⟨blanks, rfl, hblanks, -, hspan⟩ := Segment.parts_of_read hread
    obtain ⟨span, hparse⟩ := Segment.parse_of_read hblanks hread
    refine ⟨rfl, front ++ blanks, segment.matched ++ after, ?_, ?_, ?_⟩
    · rw [hselector, List.append_assoc]
    · rw [hspan, Text.bytes_append]
    · exact ⟨_, pseudo, hparse, hpseudo, hlacks⟩

/-- What is wrong with a selector is wrong where the fault says. -/
theorem stepsFrom_fits {selector front rest : Text} {axis : Axis} {error : SelectorError}
    (hselector : selector = front ++ rest)
    (hleft : front.all Text.isBlank = true ∨ rest.all Text.isBlank = false)
    (h : stepsFrom selector axis front.bytes rest = .error error) : error.FitsIn selector := by
  induction hlength : rest.length using Nat.strongRecOn generalizing front rest axis with
  | ind length ih =>
    obtain hread | ⟨segment, after, hread, hcause⟩ := stepsFrom_eq_error h
    · exact Segment.read_fits hselector hleft hread
    · have hshorter := Segment.length_lt_of_read hread
      rcases hcause with hpredicates | ⟨hblank, hrelation, rfl⟩ | ⟨hmore, hlater⟩
      · exact predicates_fits hselector hread hpredicates
      all_goals
        obtain ⟨blanks, rfl, -, -, hspan⟩ := Segment.parts_of_read hread
        have hsplit : selector = front ++ blanks ++ segment.matched ++ after := by
          rw [hselector]
          simp only [List.append_assoc]
        have hstop : Text.bytes (front ++ blanks ++ segment.matched) = segment.span.stop := by
          rw [hspan, Text.bytes_append, Text.bytes_append]
      · refine ⟨rfl, _, after, hsplit, hstop, ?_, hblank⟩
        rw [List.getLast?_append, Segment.getLast?_matched hread hrelation]
        rfl
      · rw [← hstop] at hlater
        exact ih after.length (hlength ▸ hshorter) hsplit (.inr hmore) hlater rfl

end Path

/-- Every error of a selector is about that selector, and the fault fits the place that it names. -/
theorem pathText_fits {selector : Text} {axis : Path.Axis} {error : SelectorError}
    (h : pathText selector axis = .error error) : error.FitsIn selector :=
  Path.stepsFrom_fits (List.nil_append selector).symm (.inl rfl)
    (Attempt.map_eq_error.1 (Attempt.map_eq_error.1 h))

end TreeSelect
