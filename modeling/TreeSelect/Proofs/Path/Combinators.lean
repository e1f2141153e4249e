import Mathlib.Data.List.TakeWhile
import TreeSelect.Proofs.Path.Steps
import TreeSelect.Proofs.Selector.Continued

/-!
# Combinators between selectors

Two selectors with blanks or a child sign between them compile to the path of the first and behind it
the path of the second (`ofSelector_combinators`).  `stepsFrom_append` is the induction over the
segments of the first selector; it also says what goes wrong where, if what stands behind the first
selector does not compile.  So a comma behind a selector is where its compilation fails
(`ofSelector_comma`).
-/

namespace TreeSelect.Path

/-! ## Where a selector stands -/

/-- The predicates of a segment do not depend on where it stands and what follows it. -/
theorem predicates_anywhere {selector other : Text} {segment : Segment}
    {conditions : List Predicate} (h : predicates selector segment = .ok conditions)
    (relation : Relation) (matched : Text) (span : Span) :
    predicates other { segment with relation, matched, span } = .ok conditions := by
  unfold predicates at h ⊢
  cases hpseudo : segment.pseudo with
  | none => simpa only [hpseudo] using h
  | some pseudo =>
    simp only [hpseudo] at h ⊢
    obtain ⟨position, hposition, hconditions⟩ := Attempt.bind_eq_ok.1 h
    refine Attempt.bind_eq_ok.2 ⟨position, ?_, hconditions⟩
    obtain ⟨predicate, hpredicate, rfl⟩ := Attempt.map_eq_ok.1 hposition
    refine Attempt.map_eq_ok.2 ⟨predicate, ?_, rfl⟩
    unfold positionPredicate at hpredicate ⊢
    split at hpredicate
    case h_1 condition hcondition => simpa only [hcondition] using hpredicate
    case h_2 => cases hpredicate
    case h_3 => cases hpredicate

/-- Steps are the same in every selector and at every place. -/
theorem stepsFrom_anywhere {selector : Text} {axis : Axis} {offset : Nat} {rest : Text}
    {steps : List Step} (h : stepsFrom selector axis offset rest = .ok steps) (other : Text)
    (place : Nat) : stepsFrom other axis place rest = .ok steps := by
  induction hlength : rest.length using Nat.strongRecOn
    generalizing axis offset rest steps place with
  | ind length ih =>
    obtain ⟨segment, after, conditions, hread, hconditions, hlast | hnext⟩ := stepsFrom_eq_ok h
    all_goals
      obtain ⟨span, hother⟩ := Segment.read_anywhere hread other place
      have hsame : predicates other { segment with span } = .ok conditions :=
        predicates_anywhere hconditions segment.relation segment.matched span
    · obtain ⟨hblank, hrelation, rfl⟩ := hlast
      exact stepsFrom_last hother hsame hblank hrelation axis
    · obtain ⟨hblank, others, hothers, rfl⟩ := hnext
      have hshorter := Segment.length_lt_of_read hread
      have hlater := ih after.length (hlength ▸ hshorter) hothers span.stop rfl
      rw [stepsFrom_more hother hsame hblank, hlater]
      rfl

/-- Blanks before a selector are skipped. -/
theorem stepsFrom_skip {blanks : Text} (hblanks : ∀ c ∈ blanks, Text.isBlank c = true)
    (selector : Text) (axis : Axis) (offset : Nat) (rest : Text) :
    stepsFrom selector axis offset (blanks ++ rest) =
      stepsFrom selector axis (offset + blanks.bytes) rest := by
  rw [stepsFrom.eq_def, stepsFrom.eq_def selector axis (offset + blanks.bytes),
    Segment.read_skip hblanks]

/-! ## More text behind a selector -/

/-- The axis of the step behind a segment with this child sign. -/
def Axis.ofChildSign (sign : Text) : Axis := if sign = [] then .descendant else .child

/-- The steps of a text with more text behind it.  A child sign at the beginning of the new text goes
to the last segment of the old one, and the steps behind it are those of what is left. -/
theorem stepsFrom_append {t : Text} (ht : Pieces.Stops t)
    (hmore : (Pieces.takeChild t).2.all Text.isBlank = false) {selector : Text} {axis : Axis}
    {offset : Nat} {rest : Text} {steps : List Step}
    (h : stepsFrom selector axis offset rest = .ok steps) (other : Text) :
    stepsFrom other axis offset (rest ++ t) =
      (stepsFrom other (.ofChildSign (Pieces.takeChild t).1)
        (offset + rest.bytes + (Pieces.takeChild t).1.bytes) (Pieces.takeChild t).2).map
          (steps ++ ·) := by
  have hsplit : (Pieces.takeChild t).1 ++ (Pieces.takeChild t).2 = t := Pieces.takeChild_append t
  induction hlength : rest.length using Nat.strongRecOn generalizing axis offset rest steps with
  | ind length ih =>
    obtain ⟨segment, after, conditions, hread, hconditions, hlast | hnext⟩ := stepsFrom_eq_ok h
    · obtain ⟨hblank, hrelation, rfl⟩ := hlast
      by_cases hsign : (Pieces.takeChild t).1 = []
      · -- the blanks behind the segment are skipped together with those of the new text
        rw [hsign, List.nil_append] at hsplit
        have hopen := Pieces.not_beginsOpen_of_blank hblank
        have hlong := Segment.read_append hread hopen ht (.inr hsign) other
        have hsame : predicates other segment = .ok conditions :=
          predicates_anywhere hconditions segment.relation segment.matched segment.span
        have hstop := Segment.stop_of_read hread
        have hleft : (after ++ t).all Text.isBlank = false := by
          rw [List.all_append, ← hsplit, hmore, Bool.and_false]
        rw [stepsFrom_more hlong hsame hleft, stepsFrom_skip (List.all_eq_true.1 hblank), hsplit,
          hstop, hsign, hrelation]
        rfl
      · obtain ⟨matched, span, hlong⟩ :=
          Segment.read_append_child hread hblank hrelation ht hsign other
        have hsame : predicates other { segment with relation := .child, matched, span } =
            .ok conditions := predicates_anywhere hconditions .child matched span
        have hstop : span.stop + (Pieces.takeChild t).2.bytes = offset + (rest ++ t).bytes :=
          Segment.stop_of_read hlong
        have hbytes := congrArg Text.bytes hsplit
        rw [Text.bytes_append] at hstop hbytes
        have hplace : span.stop = offset + rest.bytes + (Pieces.takeChild t).1.bytes := by omega
        rw [stepsFrom_more hlong hsame hmore, Axis.ofChildSign, if_neg hsign, hplace]
        rfl
    · obtain ⟨hblank, others, hothers, rfl⟩ := hnext
      -- the next segment is read, so no bracket is left open behind this one
      obtain ⟨_, _, _, hsecond, -⟩ := stepsFrom_eq_ok hothers
      have hopen := Segment.not_beginsOpen_of_read hsecond
      have hlong := Segment.read_append hread hopen ht (.inl hblank) other
      have hsame : predicates other segment = .ok conditions :=
        predicates_anywhere hconditions segment.relation segment.matched segment.span
      have hstop := Segment.stop_of_read hread
      have hleft : (after ++ t).all Text.isBlank = false := by
        rw [List.all_append, hblank, Bool.false_and]
      have hshorter := Segment.length_lt_of_read hread
      have hlater := ih after.length (hlength ▸ hshorter) hothers rfl
      rw [stepsFrom_more hlong hsame hleft, hlater, hstop]
      cases stepsFrom other (.ofChildSign (Pieces.takeChild t).1)
        (offset + rest.bytes + (Pieces.takeChild t).1.bytes) (Pieces.takeChild t).2 <;> rfl

/-! ## Two selectors -/

/-- No child sign stands where a selector begins. -/
theorem takeChild_of_ofSelector {selector : Text} {axis : Axis} {path : Path}
    (h : ofSelector selector axis = .ok path) :
    Pieces.takeChild selector = ([], selector) ∧ selector.all Text.isBlank = false := by
  obtain ⟨segment, after, conditions, hread, -⟩ := stepsFrom_eq_ok (ofSelector_eq_ok.1 h)
  exact ⟨Segment.takeChild_of_read hread, Segment.not_blank_of_read hread⟩

/-- The axis of the first step can be any: the path stays the same behind it. -/
theorem ofSelector_axis {selector : Text} {path : Path}
    (h : ofSelector selector .descendant = .ok path) (axis : Axis) :
    ofSelector selector axis = .ok ⟨withFirstAxis axis path.steps⟩ := by
  rw [ofSelector_eq_ok] at h ⊢
  rw [stepsFrom_eq_withFirstAxis, h]
  rfl

/-- A selector behind another one, with blanks and perhaps a child sign between them. -/
theorem ofSelector_append {s t between : Text} {axis : Axis} {first second : Path}
    (hs : ofSelector s axis = .ok first) (hstops : Pieces.Stops (between ++ t))
    {sign blanks : Text} (hchild : Pieces.takeChild (between ++ t) = (sign, blanks ++ t))
    (hblanks : ∀ c ∈ blanks, Text.isBlank c = true)
    (ht : ofSelector t (.ofChildSign sign) = .ok second) :
    ofSelector (s ++ between ++ t) axis = .ok ⟨first.steps ++ second.steps⟩ := by
  have hmore : (Pieces.takeChild (between ++ t)).2.all Text.isBlank = false := by
    rw [hchild, List.all_append, (takeChild_of_ofSelector ht).2, Bool.and_false]
  have hsteps := stepsFrom_append hstops hmore (ofSelector_eq_ok.1 hs) (s ++ (between ++ t))
  rw [hchild, stepsFrom_skip hblanks] at hsteps
  rw [List.append_assoc, ofSelector_eq_ok, hsteps, stepsFrom_anywhere (ofSelector_eq_ok.1 ht)]
  rfl

/-- A comma behind a selector, with or without blanks between them, is where its compilation
fails. -/
theorem ofSelector_comma {s blanks : Text} {axis : Axis} {path : Path}
    (hs : ofSelector s axis = .ok path) (hblanks : ∀ c ∈ blanks, Text.isBlank c = true)
    (rest : Text) :
    ofSelector (s ++ (blanks ++ ',' :: rest)) axis =
      .error (.invalid (s ++ (blanks ++ ',' :: rest)) (s.bytes + blanks.bytes)
        (.unexpected ',')) := by
  have hstuck : Pieces.Stuck ',' rest :=
    ⟨isTagChar_sign (by decide) (by decide), by decide, by decide,
      fun hcase => absurd hcase (by decide)⟩
  have hstops : Pieces.Stops (blanks ++ ',' :: rest) := by
    cases blanks with
    | nil =>
      intro c hc
      cases hc
      exact ⟨hstuck.tag, isClassChar_sign (by decide) (by decide), by decide⟩
    | cons blank more =>
      exact Pieces.stops_of_blank (hblanks blank List.mem_cons_self) (more ++ ',' :: rest)
  have hnone : Pieces.takeChild (',' :: rest) = ([], ',' :: rest) :=
    Pieces.takeChild_of_head (by simpa using hstuck.blank)
  have hchild : Pieces.takeChild (blanks ++ ',' :: rest) = ([], blanks ++ ',' :: rest) := by
    rw [Pieces.takeChild_append_of_blank hblanks, hnone, if_pos rfl]
  have hmore : (Pieces.takeChild (blanks ++ ',' :: rest)).2.all Text.isBlank = false := by
    simp [hchild, hstuck.blank]
  have hsteps := stepsFrom_append hstops hmore (ofSelector_eq_ok.1 hs) (s ++ (blanks ++ ',' :: rest))
  rw [hchild, stepsFrom_skip hblanks, stepsFrom.eq_def (s ++ _) (.ofChildSign []),
    Segment.read_stuck hstuck] at hsteps
  simp only [Text.bytes_nil, Nat.zero_add, Nat.add_zero] at hsteps
  rw [ofSelector, hsteps]
  rfl

theorem text_append (first second : List Step) :
    Path.text ⟨first ++ second⟩ = Path.text ⟨first⟩ ++ Path.text ⟨second⟩ := by
  simp [Path.text]

/-- Compilation of selectors without commas is a homomorphism over the two combinators: with blanks
between two selectors, and with a child sign between them, the steps of the second follow those of
the first, and its text follows the text of the first. -/
theorem ofSelector_combinators {s t : Text} {axis : Axis} {first second : Path}
    (hs : ofSelector s axis = .ok first) (ht : ofSelector t .descendant = .ok second) :
    (∀ blanks, blanks ≠ [] → (∀ c ∈ blanks, Text.isBlank c = true) →
        ofSelector (s ++ blanks ++ t) axis = .ok ⟨first.steps ++ second.steps⟩ ∧
          pathText (s ++ blanks ++ t) axis = .ok (first.text ++ second.text)) ∧
      ∃ below, ofSelector t .child = .ok below ∧
        ∀ before after, (∀ c ∈ before, Text.isBlank c = true) →
          (∀ c ∈ after, Text.isBlank c = true) →
            ofSelector (s ++ (before ++ '>' :: after) ++ t) axis =
                .ok ⟨first.steps ++ below.steps⟩ ∧
              pathText (s ++ (before ++ '>' :: after) ++ t) axis =
                .ok (first.text ++ below.text) := by
  obtain ⟨hnone, -⟩ := takeChild_of_ofSelector ht
  have htext : ∀ {between : Text} {later : Path},
      ofSelector (s ++ between ++ t) axis = .ok ⟨first.steps ++ later.steps⟩ →
        pathText (s ++ between ++ t) axis = .ok (first.text ++ later.text) := by
    intro between later hpath
    rw [pathText, hpath]
    exact congrArg Except.ok (text_append first.steps later.steps)
  refine ⟨fun blanks hne hblanks => ?_, ⟨_, ofSelector_axis ht .child, ?_⟩⟩
  · obtain ⟨blank, more, rfl⟩ := List.exists_cons_of_ne_nil hne
    have hstops : Pieces.Stops (blank :: more ++ t) :=
      Pieces.stops_of_blank (hblanks blank List.mem_cons_self) (more ++ t)
    have hchild : Pieces.takeChild (blank :: more ++ t) = ([], blank :: more ++ t) := by
      rw [Pieces.takeChild_append_of_blank hblanks, hnone, if_pos rfl]
    have hpath := ofSelector_append hs hstops hchild hblanks ht
    exact ⟨hpath, htext hpath⟩
  · intro before after hbefore hafter
    have hstops : Pieces.Stops (before ++ '>' :: after ++ t) := by
      cases before with
      | nil => exact Pieces.stops_of_sign (after ++ t)
      | cons blank more =>
        exact Pieces.stops_of_blank (hbefore blank List.mem_cons_self) (more ++ '>' :: after ++ t)
    have hsign : Pieces.takeChild ('>' :: (after ++ t)) = (['>'], after ++ t) := rfl
    have hchild : Pieces.takeChild (before ++ '>' :: after ++ t) =
        (before ++ ['>'], after ++ t) := by
      rw [List.append_assoc, List.cons_append, Pieces.takeChild_append_of_blank hbefore, hsign,
        if_neg (by simp)]
    have hbelow : ofSelector t (.ofChildSign (before ++ ['>'])) =
        .ok ⟨withFirstAxis .child second.steps⟩ := by
      rw [Axis.ofChildSign, if_neg (by simp), ofSelector_axis ht]
    have hpath := ofSelector_append hs hstops hchild hafter hbelow
    exact ⟨hpath, htext hpath⟩

/-- An attribute group stands before the sign and a pseudo-class with an argument behind it. -/
theorem ofSelector_combinators_groups :
    pathText "ul[title]".toList .descendantFromContext = .ok ".//ul[@title]".toList ∧
      pathText "li:nth-child(2) > a".toList .descendant = .ok "//li[position() = 2]/a".toList ∧
        pathText "ul[title] \tli:nth-child(2) > a".toList .descendantFromContext =
            .ok ".//ul[@title]//li[position() = 2]/a".toList ∧
          pathText "ul[title]> li:nth-child(2) > a".toList .descendantFromContext =
            .ok ".//ul[@title]/li[position() = 2]/a".toList := by
  let first : Path := ⟨[⟨.descendantFromContext, "ul".toList, [.attribute "title".toList none]⟩]⟩
  let second (axis : Axis) : Path := ⟨[⟨axis, "li".toList, [.position (.index "2".toList)]⟩,
    ⟨.child, "a".toList, []⟩]⟩
  have hfirst : ofSelector "ul[title]".toList .descendantFromContext = .ok first := by
    decide +kernel
  have hsecond : ofSelector "li:nth-child(2) > a".toList .descendant = .ok (second .descendant) := by
    decide +kernel
  obtain ⟨hblanks, below, hbelow, hsign⟩ := ofSelector_combinators hfirst hsecond
  rw [ofSelector_axis hsecond] at hbelow
  cases hbelow
  refine ⟨by decide +kernel, by decide +kernel, ?_, ?_⟩
  · exact (hblanks [' ', '\t'] (by decide) (by decide)).2.trans (by decide +kernel)
  · exact (hsign [] [' '] (by decide) (by decide)).2.trans (by decide +kernel)

end TreeSelect.Path
