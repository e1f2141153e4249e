import TreeSelect.Proofs.Path.OfSegments
import TreeSelect.Proofs.Text.Digits
import TreeSelect.Proofs.XPath.Scope

/-!
# Brackets in the texts of paths

A compiled path puts what a selector asks for in brackets.  Of all that a selector can hold only the
argument of `:nth-child` is written as it stands; everything else is closed, whatever the selector
says (`isClosed_of_predicates`).  Where these arguments are closed as well, the text of a path that
looks everywhere below is one of those that `Onward` is about (`exists_below`).
-/

namespace TreeSelect

open TreeSelect.XPath

/-! ## Plain texts and positions -/

/-- A text without brackets and quote marks. -/
def Text.IsPlain (s : Text) : Prop := ∀ c ∈ s, c ∉ ['[', ']', '\'', '"']

theorem Text.isPlain_of_accepts {accepts : Char → Bool} {s : Text}
    (hbad : ∀ c ∈ ['[', ']', '\'', '"'], accepts c = false) (h : ∀ c ∈ s, accepts c = true) :
    s.IsPlain := by
  intro c hc hmem
  have haccepts := h c hc
  rw [hbad c hmem] at haccepts
  cases haccepts

theorem Text.IsPlain.isClosed {s : Text} (h : s.IsPlain) : s.IsClosed := Text.isClosed_of_forall h

/-- A string is written as a closed text. -/
theorem Text.isClosed_literal (s : Text) : s.literal.IsClosed := by
  rw [Text.literal]
  split
  case isTrue hsingle => exact Text.isClosed_quoted (.inl rfl) hsingle
  case isFalse =>
    split
    case isTrue hdouble => exact Text.isClosed_quoted (.inr rfl) hdouble
    case isFalse =>
      have hstart : Text.IsClosed "concat(".toList := by decide
      have hpieces : Text.IsClosed
          (", \"'\", ".toList.intercalate ((s.split '\'').map Text.singleQuoted)) := by
        refine Text.isClosed_intercalate (by decide) fun piece hpiece => ?_
        obtain ⟨part, hpart, rfl⟩ := List.mem_map.1 hpiece
        exact Text.isClosed_quoted (.inl rfl) (Text.not_mem_of_mem_split hpart)
      exact (hstart.append hpieces).append (by decide)

namespace Position

/-- The number without leading zeros has no other characters than zero and those of the number. -/
theorem isPlain_withoutLeadingZeros {digits : Text} (h : digits.IsPlain) :
    (withoutLeadingZeros digits).IsPlain := by
  unfold withoutLeadingZeros
  split
  case h_1 =>
    intro c hc
    rw [List.mem_singleton.1 hc]
    decide
  case h_2 =>
    intro c hc
    exact h c ((List.dropWhile_suffix _).subset hc)

/-- The numbers of a cycle are digits of some script. -/
theorem isPlain_of_cycle? {argument multiple offset : Text}
    (h : cycle? argument = some (multiple, offset)) : multiple.IsPlain ∧ offset.IsPlain := by
  have hbad : ∀ c ∈ ['[', ']', '\'', '"'], Text.isDecimalDigit c = false := by decide +kernel
  simp only [cycle?] at h
  split at h
  case h_2 => cases h
  case h_1 =>
    split at h
    case h_2 => cases h
    case h_1 =>
      split at h
      case isFalse => cases h
      case isTrue hcase =>
        cases h
        exact ⟨Text.isPlain_of_accepts hbad (List.all_eq_true.1 List.all_takeWhile),
          Text.isPlain_of_accepts hbad (List.all_eq_true.1 hcase.2.2)⟩

theorem isClosed_ofNthChild (argument : Text) :
    (ofNthChild argument).text.IsClosed ∨
      ∃ condition, ofNthChild argument = .raw condition := by
  rw [ofNthChild]
  split
  case isTrue => exact .inl (by decide)
  split
  case isTrue => exact .inl (by decide)
  split
  case isTrue hdigits =>
    have hplain : argument.IsPlain :=
      Text.isPlain_of_accepts (by decide) (List.all_eq_true.1 hdigits)
    have hbefore : Text.IsClosed "position() = ".toList := by decide
    exact .inl (hbefore.append (isPlain_withoutLeadingZeros hplain).isClosed)
  split
  case h_1 multiple offset hcycle =>
    obtain ⟨hmultiple, hoffset⟩ := isPlain_of_cycle? hcycle
    have hoffset := (isPlain_withoutLeadingZeros hoffset).isClosed
    have hmultiple := (isPlain_withoutLeadingZeros hmultiple).isClosed
    have hcounted : Text.IsClosed "(position()-".toList := by decide
    have hmod : Text.IsClosed ") mod ".toList := by decide
    have hbound : Text.IsClosed " = 0 and position() >= ".toList := by decide
    exact .inl (((((hcounted.append hoffset).append hmod).append hmultiple).append hbound).append
      hoffset)
  case h_2 => exact .inr ⟨argument, rfl⟩

/-- A position that is not taken as it stands is written as a closed text. -/
theorem isClosed_ofPseudo {name : Text} {argument : Option Text} {position : Position}
    (h : ofPseudo name argument = .ok position) :
    position.text.IsClosed ∨ ∃ condition, position = .raw condition := by
  rcases cases_of_ofPseudo h with rfl | rfl | ⟨argument, rfl⟩
  · exact .inl (by decide)
  · exact .inl (by decide)
  · exact isClosed_ofNthChild argument

end Position

/-! ## Predicates -/

/-- The conditions of a segment name attributes. -/
theorem AttributeConditions.isAttributeName_of_ofGroups {groups : Text}
    {conditions : AttributeConditions} (h : ofGroups groups = .ok conditions) :
    ∀ name ∈ conditions.keys, isAttributeName name = true := by
  rw [ofGroups] at h
  have hempty : ∀ name ∈ OrderedMap.keys (.empty : AttributeConditions),
      isAttributeName name = true := by
    intro name hname
    cases hname
  generalize (OrderedMap.empty : AttributeConditions) = before at h hempty
  generalize splitGroups (withoutBrackets groups) = parts at h
  induction parts generalizing before with
  | nil =>
    cases h
    exact hempty
  | cons part parts ih =>
    rw [List.foldlM_cons] at h
    obtain ⟨between, hbetween, h⟩ := Attempt.bind_eq_ok.1 h
    refine ih between (fun name hname => ?_) h
    simp only at hbetween
    split at hbetween
    case isFalse => cases hbetween
    case isTrue hpart =>
      cases hbetween
      rw [OrderedMap.keys_insert] at hname
      split at hname
      · exact hempty name hname
      · rcases List.mem_append.1 hname with hname | hname
        · exact hempty name hname
        · rw [List.mem_singleton.1 hname]
          exact hpart

/-- Whether the argument that the segment takes as it stands, if it takes one, is closed. -/
def Segment.TakesClosed (segment : Segment) : Prop :=
  ∀ pseudo, segment.pseudo = some pseudo → ∀ condition,
    Position.ofPseudo pseudo.name pseudo.argument = .ok (.raw condition) → condition.IsClosed

namespace Path

theorem Predicate.isClosed_id (value : Text) : (Predicate.id value).text.IsClosed :=
  Text.IsClosed.append (by decide : Text.IsClosed "@id=".toList) (Text.isClosed_literal value)

theorem Predicate.isClosed_attribute {name : Text}
    (h : AttributeConditions.isAttributeName name = true) (value : Option Text) :
    (Predicate.attribute name value).text.IsClosed := by
  have hbad : ∀ c ∈ ['[', ']', '\'', '"'], AttributeConditions.isAttributeNameChar c = false := by
    decide +kernel
  rw [AttributeConditions.isAttributeName, Bool.and_eq_true, List.all_eq_true] at h
  have hname : Text.IsClosed ('@' :: name) :=
    Text.IsClosed.append (by decide : Text.IsClosed ['@'])
      (Text.isPlain_of_accepts hbad h.2).isClosed
  cases value with
  | none => exact hname
  | some value =>
    exact hname.append (Text.IsClosed.append (by decide : Text.IsClosed ['='])
      (Text.isClosed_literal value))

theorem Predicate.isClosed_hasClass {name : Text} (h : ∀ c ∈ name, isNameChar c = true) :
    (Predicate.hasClass name).text.IsClosed := by
  have hquoted : Text.IsClosed ('\'' :: (' ' :: name ++ [' ']) ++ ['\'']) := by
    refine Text.isClosed_quoted (.inl rfl) fun hmem => ?_
    have hname : '\'' ∉ name := fun hquote => ne_quote_of_isNameChar (h _ hquote) rfl
    simp [hname] at hmem
  have hstart : Text.IsClosed "contains(concat(' ', normalize-space(@class), ' '), ".toList := by
    decide +kernel
  have htext : (Predicate.hasClass name).text =
      "contains(concat(' ', normalize-space(@class), ' '), ".toList ++
        ('\'' :: (' ' :: name ++ [' ']) ++ ['\'']) ++ [')'] := by
    unfold Predicate.text
    simp
  rw [htext]
  exact (hstart.append hquoted).append (by decide)

/-- What a segment asks for beside a position is written as closed texts. -/
theorem isClosed_plainPredicates {selector : Text} {offset : Nat} {rest after : Text}
    {segment : Segment} (hread : Segment.read selector offset rest = .ok (segment, after)) :
    ∀ predicate ∈ plainPredicates segment, predicate.text.IsClosed := by
  have hclasses := Segment.hasClassNames_of_read hread
  obtain ⟨start, input, hpieces⟩ := Segment.read_eq_ok hread
  obtain ⟨attributes, hattributes, hmade⟩ := Segment.ofPieces_eq_ok.1 hpieces
  have hnames : ∀ entry ∈ (segment.attributes.getD .empty).entries,
      AttributeConditions.isAttributeName entry.1 = true := by
    rw [hmade]
    intro entry hentry
    rcases hattributes with ⟨-, rfl⟩ | ⟨-, conditions, hconditions, rfl⟩
    · cases hentry
    · exact AttributeConditions.isAttributeName_of_ofGroups hconditions entry.1
        (List.mem_map_of_mem hentry)
  exact forall_plainPredicates.2 ⟨fun value _ => Predicate.isClosed_id value,
    fun entry hentry => Predicate.isClosed_attribute (hnames entry hentry) entry.2,
    fun name hname => Predicate.isClosed_hasClass (hclasses name hname).2⟩

/-- A predicate of a segment is written as a closed text. -/
theorem isClosed_of_predicates {selector : Text} {offset : Nat} {rest after : Text}
    {segment : Segment} {conditions : List Predicate}
    (hread : Segment.read selector offset rest = .ok (segment, after))
    (h : predicates selector segment = .ok conditions) (htakes : segment.TakesClosed) :
    ∀ predicate ∈ conditions, predicate.text.IsClosed := by
  intro predicate hpredicate
  rcases of_mem_predicates h hpredicate with hplain | ⟨pseudo, hpseudo, condition, hcondition, rfl⟩
  · exact isClosed_plainPredicates hread predicate hplain
  · rcases Position.isClosed_ofPseudo hcondition with hclosed | ⟨argument, rfl⟩
    · exact hclosed
    · exact htakes pseudo hpseudo argument hcondition

/-! ## Steps -/

/-- Whether a step is written with a tag and with nothing but closed texts in its brackets. -/
def Step.IsEnclosed (step : Step) : Prop :=
  step.tag ≠ [] ∧ (∀ c ∈ step.tag, isTagChar c = true) ∧
    ∀ predicate ∈ step.predicates, predicate.text.IsClosed

/-- The step of a segment is enclosed. -/
theorem isEnclosed_of_predicates {selector : Text} {offset : Nat} {rest after : Text}
    {segment : Segment} {conditions : List Predicate}
    (hread : Segment.read selector offset rest = .ok (segment, after))
    (h : predicates selector segment = .ok conditions) (htakes : segment.TakesClosed)
    (axis : Axis) : (Step.mk axis segment.tag conditions).IsEnclosed := by
  have hclosed := isClosed_of_predicates hread h htakes
  obtain ⟨start, input, hpieces⟩ := Segment.read_eq_ok hread
  obtain ⟨attributes, -, rfl⟩ := Segment.ofPieces_eq_ok.1 hpieces
  refine ⟨?_, ?_, hclosed⟩
  · show (if (Pieces.scan input).1.tag.isEmpty then ['*'] else (Pieces.scan input).1.tag) ≠ []
    split
    case isTrue => exact List.cons_ne_nil _ _
    case isFalse hne => simpa using hne
  · show ∀ c ∈ if (Pieces.scan input).1.tag.isEmpty then ['*'] else (Pieces.scan input).1.tag, _
    split
    case isTrue =>
      intro c hc
      rw [List.mem_singleton.1 hc]
      simp [isTagChar]
    case isFalse => exact List.all_eq_true.1 List.all_takeWhile

/-- The steps of a selector are enclosed, and only the first of them can start at the context
node. -/
theorem isEnclosed_of_stepsFrom {selector : Text} {axis : Axis}
    (haxis : axis ≠ .descendantFromContext) {offset : Nat} {rest : Text} {steps : List Step}
    {segments : List Segment} (h : stepsFrom selector axis offset rest = .ok steps)
    (hchain : Segment.chainFrom selector offset rest = .ok segments)
    (htakes : ∀ segment ∈ segments, segment.TakesClosed) :
    ∀ step ∈ steps, step.IsEnclosed ∧ step.axis ≠ .descendantFromContext := by
  intro step hstep
  constructor
  · obtain ⟨segment, hsegment, htag, hconditions, _, _, _, hread⟩ :=
      exists_of_mem_stepsFrom h hchain step hstep
    obtain ⟨axis, tag, conditions⟩ := step
    cases htag
    exact isEnclosed_of_predicates hread hconditions (htakes segment hsegment) axis
  · obtain ⟨first, others, rfl, hfirst⟩ := axis_of_stepsFrom h
    rcases List.mem_cons.1 hstep with rfl | hother
    · rw [hfirst]
      exact haxis
    · exact axis_tail_of_stepsFrom h step hother

/-- Enclosed predicates may stand behind a tag. -/
theorem onward_bracketed {predicates : List Predicate}
    (h : ∀ predicate ∈ predicates, predicate.text.IsClosed) {rest : Text} (hrest : Onward rest) :
    Onward (bracketed predicates ++ rest) := by
  have hbrackets : ∀ {inside : Text}, inside.IsClosed → Onward ('[' :: inside ++ [']'] ++ rest) := by
    intro inside hinside
    have htext : '[' :: inside ++ [']'] ++ rest = '[' :: (inside ++ ']' :: rest) := by simp
    rw [htext]
    exact .brackets hinside hrest
  match predicates with
  | [] => exact hrest
  | [predicate] => exact hbrackets (h predicate List.mem_cons_self)
  | first :: second :: others =>
    refine hbrackets (Text.isClosed_intercalate (by decide) fun piece hpiece => ?_)
    obtain ⟨predicate, hpredicate, rfl⟩ := List.mem_map.1 hpiece
    exact (Text.IsClosed.append (by decide : Text.IsClosed ['(']) (h predicate hpredicate)).append
      (by decide)

theorem onward_tag {tag rest : Text} (htag : ∀ c ∈ tag, isTagChar c = true)
    (hrest : Onward rest) : Onward (tag ++ rest) := by
  induction tag with
  | nil => exact hrest
  | cons c tag ih =>
    exact .tag (htag c List.mem_cons_self) (ih fun d hd => htag d (List.mem_cons_of_mem c hd))

/-- An enclosed step is a tag character, and what may stand behind one. -/
theorem Step.IsEnclosed.text {step : Step} (h : step.IsEnclosed) {rest : Text}
    (hrest : Onward rest) : ∃ c s, isTagChar c = true ∧ Onward s ∧
      step.tag ++ bracketed step.predicates ++ rest = c :: s := by
  obtain ⟨axis, tag, predicates⟩ := step
  obtain ⟨hne, htag, hpredicates⟩ := h
  have hbehind := onward_bracketed hpredicates hrest
  obtain ⟨c, more, rfl⟩ := List.exists_cons_of_ne_nil hne
  exact ⟨c, more ++ (bracketed predicates ++ rest), htag c List.mem_cons_self,
    onward_tag (fun d hd => htag d (List.mem_cons_of_mem c hd)) hbehind, by simp⟩

theorem Step.text_append (step : Step) (rest : Text) :
    step.text ++ rest = step.axis.text ++ (step.tag ++ bracketed step.predicates ++ rest) := by
  simp [Step.text]

/-- Enclosed steps may stand behind a step. -/
theorem onward_steps {steps : List Step}
    (h : ∀ step ∈ steps, step.IsEnclosed ∧ step.axis ≠ .descendantFromContext) {rest : Text}
    (hrest : Onward rest) : Onward (steps.flatMap Step.text ++ rest) := by
  induction steps with
  | nil => exact hrest
  | cons step steps ih =>
    obtain ⟨hstep, haxis⟩ := h step List.mem_cons_self
    obtain ⟨c, s, hc, hs, htext⟩ :=
      hstep.text (ih fun other hother => h other (List.mem_cons_of_mem step hother))
    rw [List.flatMap_cons, List.append_assoc, Step.text_append, htext]
    cases hsign : step.axis with
    | descendant => exact .descendants hc hs
    | child => exact .children hc hs
    | descendantFromContext => exact absurd hsign haxis

/-! ## Paths -/

/-- The text of a path whose first step looks everywhere below, before what may stand behind it. -/
theorem exists_below {path : Path} (hfirst : ∃ first others, path.steps = first :: others ∧
      first.axis = .descendant)
    (h : ∀ step ∈ path.steps, step.IsEnclosed ∧ step.axis ≠ .descendantFromContext) {rest : Text}
    (hrest : Onward rest) : ∃ c s, isTagChar c = true ∧ Onward s ∧
      path.text ++ rest = '/' :: '/' :: c :: s := by
  obtain ⟨first, others, hsteps, haxis⟩ := hfirst
  rw [hsteps] at h
  obtain ⟨c, s, hc, hs, htext⟩ := (h first List.mem_cons_self).1.text
    (onward_steps (fun other hother => h other (List.mem_cons_of_mem first hother)) hrest)
  refine ⟨c, s, hc, hs, ?_⟩
  rw [Path.text, hsteps, List.flatMap_cons, List.append_assoc, Step.text_append, htext, haxis]
  rfl

end Path
end TreeSelect
