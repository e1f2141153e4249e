import TreeSelect.Proofs.Selector.PseudoBehind
import TreeSelect.Proofs.Selector.Splitting

/-!
# A tag and written conditions

A tag with conditions on attributes behind it, each in its brackets, is one segment, and the
conditions are what it asks for.  It is also one branch, as long as no comma in a value is taken for
the end of a branch; the scan for commas takes every quote mark for the beginning or the end of a
quotation, and every parenthesis outside of quotations for a bracket.

* `Uncut`: what the scan keeps from the beginning of a text to its end while it cuts nothing off.
  Texts are put together by `Uncut.append` and `Uncut.flatMap`.
* `WrittenCondition.StayTogether`: three reasons why values cannot be cut.
* `branches_conditions` and `Segment.parse_conditions`: the branch and the segment.
-/

namespace TreeSelect

/-! ## Scanning in one piece -/

/-- Whether a text is not cut where the nesting before it is as `before` says, and the nesting behind
it is then as `behind` says. -/
def Uncut (before : Nesting → Prop) (s : Text) (behind : Nesting → Prop) : Prop :=
  ∀ nesting, before nesting → cutBranches nesting s = [s] ∧ behind (nesting.after s)

namespace Uncut

variable {before between behind : Nesting → Prop} {s t : Text}

theorem nil : Uncut before [] before := fun _ hbefore => ⟨rfl, hbefore⟩

theorem append (hs : Uncut before s between) (ht : Uncut between t behind) :
    Uncut before (s ++ t) behind := by
  intro nesting h
  obtain ⟨hcuts, hbetween⟩ := hs nesting h
  obtain ⟨hmore, hbehind⟩ := ht _ hbetween
  rw [cutBranches_append_of_uncut hcuts, hmore]
  refine ⟨rfl, ?_⟩
  rwa [Nesting.after, List.foldl_append]

/-- A character is not cut off unless it is a comma where nothing is open. -/
theorem single {c : Char}
    (h : ∀ nesting, before nesting → (c = ',' → nesting.isTop = false) ∧ behind (nesting.next c)) :
    Uncut before [c] behind := by
  intro nesting hbefore
  obtain ⟨hcomma, hnext⟩ := h nesting hbefore
  have hkept : ¬ (c = ',' ∧ nesting.isTop = true) := by
    rintro ⟨hc, htop⟩
    rw [hcomma hc] at htop
    cases htop
  exact ⟨by rw [cutBranches, if_neg hkept]; rfl, hnext⟩

theorem flatMap {α : Type} {f : α → Text} {list : List α}
    (h : ∀ a ∈ list, Uncut before (f a) before) : Uncut before (list.flatMap f) before := by
  induction list with
  | nil => exact .nil
  | cons a list ih =>
    obtain ⟨ha, hlist⟩ := List.forall_mem_cons.1 h
    exact ha.append (ih hlist)

/-- Characters that keep the nesting one by one keep it together. -/
theorem of_forall (h : ∀ c ∈ s, Uncut before [c] before) : Uncut before s before := by
  have hsingles := flatMap h
  rwa [List.flatMap_singleton'] at hsingles

theorem of_imp {stronger weaker : Nesting → Prop} (h : Uncut before s behind)
    (hstronger : ∀ nesting, stronger nesting → before nesting)
    (hweaker : ∀ nesting, behind nesting → weaker nesting) : Uncut stronger s weaker := by
  intro nesting hnesting
  obtain ⟨hcuts, hbehind⟩ := h nesting (hstronger nesting hnesting)
  exact ⟨hcuts, hweaker _ hbehind⟩

/-- One character from one nesting to the next. -/
theorem step {nesting next : Nesting} {c : Char} (hcomma : c = ',' → nesting.isTop = false)
    (hnext : nesting.next c = next) : Uncut (· = nesting) [c] (· = next) := by
  refine single fun other hother => ?_
  subst hother
  exact ⟨hcomma, hnext⟩

end Uncut

namespace Nesting

/-- In a quotation, characters that are not its mark leave the nesting as it is. -/
theorem next_of_ne {c mark : Char} (h : c ≠ mark) (depth : Nat) :
    next ⟨depth, some mark⟩ c = ⟨depth, some mark⟩ := if_neg h

/-- Only a closing bracket takes from the depth. -/
theorem le_depth_next (nesting : Nesting) {c : Char} (hsquare : c ≠ ']') (hround : c ≠ ')') :
    nesting.depth ≤ (nesting.next c).depth := by
  unfold next
  split
  · split <;> exact Nat.le_refl _
  · split
    · exact Nat.le_refl _
    · split
      · exact Nat.le_succ _
      · rw [if_neg (by simp [hsquare, hround])]

end Nesting

/-- A tag is passed with nothing open. -/
theorem uncut_tag {tag : Text} (htag : ∀ c ∈ tag, isTagChar c = true) :
    Uncut (· = {}) tag (· = {}) := by
  have hsigns : ∀ sign ∈ ',' :: Nesting.signs, isTagChar sign = false := by decide +kernel
  have hother : ∀ c ∈ tag, c ∉ ',' :: Nesting.signs := by
    intro c hc hmem
    have hchar := htag c hc
    rw [hsigns c hmem] at hchar
    cases hchar
  refine .of_forall fun c hc => ?_
  obtain ⟨hcomma, hsign⟩ := not_or.1 (List.mem_cons.not.1 (hother c hc))
  exact .step (fun h => absurd h hcomma) (Nesting.next_of_not_mem hsign 0)

namespace WrittenCondition

variable {asked : WrittenCondition}

/-- An attribute name has no character that opens or closes something, and no comma. -/
theorem not_mem_signs (h : asked.IsWritable) : ∀ c ∈ asked.name, c ∉ ',' :: Nesting.signs := by
  have hsigns : ∀ sign ∈ ',' :: Nesting.signs,
      AttributeConditions.isAttributeNameChar sign = false := by decide +kernel
  have hchars := h.name
  rw [AttributeConditions.isAttributeName, Bool.and_eq_true, List.all_eq_true] at hchars
  intro c hc hmem
  have hchar := hchars.2 c hc
  rw [hsigns c hmem] at hchar
  cases hchar

/-- A sign other than the marks is in a condition only if it is in the value. -/
theorem not_mem_text (h : asked.IsWritable) {sign : Char} (hsign : sign ∈ ',' :: Nesting.signs)
    (hmark : ∀ mark : QuoteMark, sign ≠ mark.char) (hvalue : ∀ value ∈ asked.value, sign ∉ value.2) :
    sign ∉ asked.text := by
  have hname : sign ∉ asked.name := fun hmem => not_mem_signs h sign hmem hsign
  have hequals : sign ≠ '=' := by
    rintro rfl
    exact absurd hsign (by decide)
  rcases asked with ⟨name, _ | ⟨mark, value⟩⟩
  · simpa [text] using hname
  · simp [text, hname, hequals, hmark mark, hvalue _ rfl]

/-! ## Values that do not end their quotations -/

/-- A value without its own mark is passed as one quotation, and so nothing stays open. -/
theorem uncut_of_quoted (h : asked.IsWritable)
    (hvalue : ∀ value ∈ asked.value, value.1.char ∉ value.2) :
    Uncut (· = {}) ('[' :: asked.text ++ [']']) (· = {}) := by
  have hname : Uncut (· = ⟨1, none⟩) asked.name (· = ⟨1, none⟩) := by
    refine .of_forall fun c hc => .step (fun _ => rfl) (Nesting.next_of_not_mem ?_ 1)
    exact fun hmem => not_mem_signs h c hc (List.mem_cons_of_mem _ hmem)
  have hasked : Uncut (· = ⟨1, none⟩) asked.text (· = ⟨1, none⟩) := by
    refine hname.append ?_
    cases hwritten : asked.value with
    | none => exact .nil
    | some value =>
      obtain ⟨mark, value⟩ := value
      have hinside : Uncut (· = ⟨1, some mark.char⟩) value (· = ⟨1, some mark.char⟩) := by
        refine .of_forall fun c hc => .step (fun _ => rfl) (Nesting.next_of_ne ?_ 1)
        rintro rfl
        exact hvalue _ hwritten hc
      have hequals : Uncut (· = ⟨1, none⟩) ['='] (· = ⟨1, none⟩) := .step (fun _ => rfl) rfl
      have hopens : Uncut (· = ⟨1, none⟩) [mark.char] (· = ⟨1, some mark.char⟩) :=
        .step (fun _ => rfl) (by cases mark <;> rfl)
      have hcloses : Uncut (· = ⟨1, some mark.char⟩) [mark.char] (· = ⟨1, none⟩) :=
        .step (fun _ => rfl) (if_pos rfl)
      exact ((hequals.append hopens).append hinside).append hcloses
  have hopens : Uncut (· = {}) ['['] (· = ⟨1, none⟩) := .step (by decide) rfl
  have hcloses : Uncut (· = ⟨1, none⟩) [']'] (· = {}) := .step (fun _ => rfl) rfl
  exact (hopens.append hasked).append hcloses

/-! ## Values that close no parenthesis -/

/-- Whether a bracket is open at least where a quotation is. -/
def Guarded (nesting : Nesting) : Prop := nesting.quote = none ∨ 0 < nesting.depth

/-- Without a closing parenthesis in its value a condition is passed inside of its bracket, even where
the scan mistakes quotations. -/
theorem uncut_of_unclosed (h : asked.IsWritable) (hvalue : ∀ value ∈ asked.value, ')' ∉ value.2) :
    Uncut Guarded ('[' :: asked.text ++ [']']) Guarded := by
  have hround : ')' ∉ asked.text :=
    not_mem_text h (by decide) (fun mark => by cases mark <;> decide) hvalue
  have hasked : Uncut (0 < ·.depth) asked.text (0 < ·.depth) := by
    refine .of_forall fun c hc => .single fun nesting hdepth => ⟨fun _ => ?_, ?_⟩
    · simp [Nesting.isTop, Nat.pos_iff_ne_zero.1 hdepth]
    · refine Nat.lt_of_lt_of_le hdepth (nesting.le_depth_next ?_ ?_)
      · rintro rfl
        exact closing_not_mem_text h hc
      · rintro rfl
        exact hround hc
  have hopens : Uncut Guarded ['['] (0 < ·.depth) := by
    refine .single fun nesting hguarded => ⟨by simp, ?_⟩
    obtain ⟨depth, _ | mark⟩ := nesting
    · exact Nat.succ_pos depth
    · obtain hdepth : 0 < depth := hguarded.resolve_left (by simp)
      unfold Nesting.next
      dsimp only
      split <;> exact hdepth
  have hcloses : Uncut (0 < ·.depth) [']'] Guarded := by
    refine .single fun nesting hdepth => ⟨by simp, ?_⟩
    obtain ⟨depth, _ | mark⟩ := nesting
    · exact .inl rfl
    · unfold Nesting.next
      dsimp only
      split
      · exact .inl rfl
      · exact .inr hdepth
  exact (hopens.append hasked).append hcloses

/-! ## One branch -/

/-- Whether the values of conditions cannot be cut, for one of three reasons: no value has its own mark
inside, no value has a comma, or no value has a closing parenthesis. -/
def StayTogether (written : List WrittenCondition) : Prop :=
  (∀ asked ∈ written, ∀ value ∈ asked.value, value.1.char ∉ value.2) ∨
    (∀ asked ∈ written, ∀ value ∈ asked.value, ',' ∉ value.2) ∨
      ∀ asked ∈ written, ∀ value ∈ asked.value, ')' ∉ value.2

theorem cutBranches_conditions {tag : Text} (htag : ∀ c ∈ tag, isTagChar c = true)
    {written : List WrittenCondition} (h : ∀ asked ∈ written, asked.IsWritable)
    (htogether : StayTogether written) :
    cutBranches {} (tag ++ bracketed (written.map text)) =
      [tag ++ bracketed (written.map text)] := by
  have htagUncut := uncut_tag htag
  rw [bracketed, List.flatMap_map]
  rcases htogether with hquoted | hcommas | hunclosed
  · have hwritten := Uncut.flatMap fun asked hasked =>
      uncut_of_quoted (h asked hasked) (hquoted asked hasked)
    exact ((htagUncut.append hwritten) {} rfl).1
  · have hwritten : ',' ∉ written.flatMap fun asked => '[' :: asked.text ++ [']'] := by
      intro hmem
      obtain ⟨asked, hasked, hcomma⟩ := List.mem_flatMap.1 hmem
      have htext := not_mem_text (h asked hasked) (by decide) (fun mark => by cases mark <;> decide)
        (hcommas asked hasked)
      simp [htext] at hcomma
    exact cutBranches_append_of_not_mem (htagUncut {} rfl).1 hwritten
  · have hwritten := Uncut.flatMap fun asked hasked =>
      uncut_of_unclosed (h asked hasked) (hunclosed asked hasked)
    have hguarded : Uncut (· = {}) tag Guarded :=
      htagUncut.of_imp (fun _ => id) fun nesting hnesting => hnesting ▸ .inl rfl
    exact ((hguarded.append hwritten) {} rfl).1

end WrittenCondition

/-! ## One segment -/

/-- What a tag and the groups of conditions behind it are as pieces. -/
def conditionPieces (tag : Text) (written : List WrittenCondition) : Pieces :=
  ⟨tag, [], [], bracketed (written.map WrittenCondition.text), none, []⟩

variable {tag : Text} {written : List WrittenCondition}

theorem text_conditionPieces (tag : Text) (written : List WrittenCondition) :
    (conditionPieces tag written).text = tag ++ bracketed (written.map WrittenCondition.text) := by
  simp [conditionPieces, Pieces.text, Pieces.pseudoText]

theorem isWritten_conditionPieces (htag : ∀ c ∈ tag, isTagChar c = true)
    (h : ∀ asked ∈ written, asked.IsWritable) : (conditionPieces tag written).IsWritten := by
  refine Segment.isWritten_tag_groups htag fun part hpart => ?_
  obtain ⟨asked, hasked, rfl⟩ := List.mem_map.1 hpart
  exact WrittenCondition.closing_not_mem_text (h asked hasked)

theorem describes_conditionPieces (hne : tag ≠ []) (written : List WrittenCondition) :
    (conditionPieces tag written).describes = true := by
  simp [conditionPieces, Pieces.describes, hne]

/-- A tag and conditions are one branch if no comma is taken for the end of one. -/
theorem branches_conditions (hne : tag ≠ []) (htag : ∀ c ∈ tag, isTagChar c = true)
    (h : ∀ asked ∈ written, asked.IsWritable) (htogether : WrittenCondition.StayTogether written) :
    branches (tag ++ bracketed (written.map WrittenCondition.text)) =
      [⟨0, tag ++ bracketed (written.map WrittenCondition.text)⟩] := by
  have hcuts := WrittenCondition.cutBranches_conditions htag h htogether
  refine branches_of_cutBranches hcuts ⟨?_, ?_⟩
  · obtain ⟨first, rest, htext, hfirst⟩ := Pieces.begins_text (isWritten_conditionPieces htag h)
      (describes_conditionPieces hne written)
    rw [← text_conditionPieces, htext]
    intro c hc
    cases hc
    exact hfirst
  · intro c hc
    rw [List.getLast?_append] at hc
    rcases Option.or_eq_some_iff.1 hc with hgroups | ⟨-, hlast⟩
    · rw [last_bracketed _ c hgroups]
      decide
    · exact isBlank_of_isTagChar (htag c (List.mem_of_getLast? hlast))

/-- The segment that asks for a tag and conditions. -/
def Segment.ofConditions (tag : Text) (written : List WrittenCondition) : Segment :=
  made 0 (conditionPieces tag written) (some (.ofList (written.map WrittenCondition.entry)))

theorem Segment.tag_ofConditions (hne : tag ≠ []) (written : List WrittenCondition) :
    (ofConditions tag written).tag = tag :=
  if_neg fun hempty => hne (List.isEmpty_iff.1 hempty)

/-- A tag and conditions are read as that segment. -/
theorem Segment.parse_conditions (hne : tag ≠ []) (htag : ∀ c ∈ tag, isTagChar c = true)
    (hwritten : written ≠ []) (h : ∀ asked ∈ written, asked.IsWritable) :
    parse (tag ++ bracketed (written.map WrittenCondition.text)) =
      .ok (ofConditions tag written) := by
  rw [← text_conditionPieces]
  refine parse_pieces (isWritten_conditionPieces htag h) (describes_conditionPieces hne written)
    (.inr ⟨?_, _, AttributeConditions.ofGroups_text hwritten h, rfl⟩)
  exact fun hnil => hwritten (List.map_eq_nil_iff.1 (bracketed_eq_nil.1 hnil))

end TreeSelect
