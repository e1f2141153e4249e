import TreeSelect.Proofs.Attempt
import TreeSelect.Proofs.Text.Pieces
import TreeSelect.Selector.Segment

/-!
# The class names of a segment

A class name is taken out of a run of word characters, hyphens and points, and the points are cut
away.  None of the characters that are left is blank or a quote mark, so that a class name can stand
between quote marks and be looked for among words.

* `read_eq_ok` says where a segment comes from.
* `hasClassNames_of_read` is what the proofs about classes need.
-/

namespace TreeSelect

/-! ## Characters -/

/-- Whether no code point is in both sets. -/
def CodeRanges.apart (ranges others : CodeRanges) : Bool :=
  ranges.all fun range => others.all fun other => range.2 < other.1 || other.2 < range.1

theorem CodeRanges.contains_eq_false {ranges others : CodeRanges}
    (h : ranges.apart others = true) {c : Char} (hc : ranges.contains c = true) :
    others.contains c = false := by
  rw [contains, List.any_eq_true] at hc
  obtain ⟨range, hrange, hwithin⟩ := hc
  rw [apart, List.all_eq_true] at h
  have hothers := List.all_eq_true.1 (h range hrange)
  rw [contains, List.any_eq_false]
  intro other hother
  have hapart := hothers other hother
  simp only [Bool.and_eq_true, Bool.or_eq_true, decide_eq_true_eq] at hwithin hapart ⊢
  omega

/-- A character of a name is not blank. -/
theorem isBlank_of_isNameChar {c : Char} (h : isNameChar c = true) : Text.isBlank c = false := by
  rw [isNameChar, Bool.or_eq_true, beq_iff_eq] at h
  rcases h with hword | rfl
  · have happart : Text.wordRanges.apart Text.blankRanges = true := by decide +kernel
    exact CodeRanges.contains_eq_false happart hword
  · decide

theorem isBlank_of_isTagChar {c : Char} (h : isTagChar c = true) : Text.isBlank c = false := by
  rw [isTagChar, Bool.or_eq_true, beq_iff_eq] at h
  rcases h with hname | rfl
  · exact isBlank_of_isNameChar hname
  · decide

/-- The signs and gaps that stand between names. -/
def nameSigns : List Char :=
  ['#', '.', '[', ']', ':', '(', ')', '>', '*', ',', '\'', '/', '|', '@', ' ', '\t', '\r', '\n']

theorem isNameChar_sign {c : Char} (h : c ∈ nameSigns) : isNameChar c = false := by
  have hsigns : ∀ c ∈ nameSigns, isNameChar c = false := by decide +kernel
  exact hsigns c h

theorem isTagChar_sign {c : Char} (h : c ∈ nameSigns) (hne : c ≠ '*') :
    isTagChar c = false := by
  simp [isTagChar, isNameChar_sign h, hne]

theorem isClassChar_sign {c : Char} (h : c ∈ nameSigns) (hne : c ≠ '.') :
    isClassChar c = false := by
  simp [isClassChar, isNameChar_sign h, hne]

/-- A character of a name is no quote mark. -/
theorem ne_quote_of_isNameChar {c : Char} (h : isNameChar c = true) : c ≠ '\'' := by
  rintro rfl
  rw [isNameChar_sign (by decide)] at h
  cases h

/-! ## Runs of classes -/

/-- A signed piece holds its sign and characters that the piece accepts. -/
theorem Pieces.of_mem_takeSigned {sign : Char} {accepts : Char → Bool} {s : Text} {c : Char}
    (h : c ∈ (takeSigned sign accepts s).1) : c = sign ∨ accepts c = true := by
  cases s with
  | nil => cases h
  | cons d rest =>
    rw [takeSigned] at h
    split at h
    case isTrue hd =>
      rcases List.mem_cons.1 h with rfl | hrest
      · exact .inl hd.1
      · exact .inr (List.all_eq_true.1 List.all_takeWhile c hrest)
    case isFalse => cases h

namespace Segment

/-- The characters of a class name come from the run, and none is a point. -/
theorem of_mem_classesOf {run name : Text} (h : name ∈ (classesOf run).getD []) :
    name ≠ [] ∧ '.' ∉ name ∧ ∀ c ∈ name, c ∈ run := by
  have hpiece : name ∈ (run.split '.').filter (!·.isEmpty) := by
    unfold classesOf at h
    split at h
    · cases h
    · exact h
  obtain ⟨hmem, hne⟩ := List.mem_filter.1 hpiece
  refine ⟨by simpa using hne, Text.not_mem_of_mem_split hmem, ?_⟩
  intro c hc
  exact (Text.of_mem_splitWhere hmem c hc).1

/-! ## Segments -/

/-- A segment that is read is made of the pieces at the beginning of the text. -/
theorem read_eq_ok {selector : Text} {offset : Nat} {rest after : Text} {segment : Segment}
    (h : read selector offset rest = .ok (segment, after)) :
    ∃ start input, ofPieces selector start (Pieces.scan input).1 = .ok segment := by
  simp only [read] at h
  split at h
  · cases h
  case h_2 first input _ =>
    split at h
    · cases h
    · split at h
      · cases h
      · obtain ⟨_, hpieces, hpair⟩ := Attempt.map_eq_ok.1 h
        cases hpair
        exact ⟨_, _, hpieces⟩

theorem classes_of_ofPieces {selector : Text} {start : Nat} {pieces : Pieces} {segment : Segment}
    (h : ofPieces selector start pieces = .ok segment) :
    segment.classes = classesOf pieces.classes := by
  rw [ofPieces] at h
  split at h
  case isTrue =>
    cases h
    rfl
  case isFalse =>
    split at h
    · cases h
      rfl
    · cases h

/-- Each class name has characters, and all of them are characters of names. -/
def HasClassNames (segment : Segment) : Prop :=
  ∀ name ∈ segment.classes.getD [], name ≠ [] ∧ ∀ c ∈ name, isNameChar c = true

theorem hasClassNames_of_read {selector : Text} {offset : Nat} {rest after : Text}
    {segment : Segment} (h : read selector offset rest = .ok (segment, after)) :
    segment.HasClassNames := by
  intro name hname
  obtain ⟨start, input, hpieces⟩ := read_eq_ok h
  rw [classes_of_ofPieces hpieces] at hname
  obtain ⟨hne, hpoint, hrun⟩ := of_mem_classesOf hname
  refine ⟨hne, ?_⟩
  intro c hc
  have hother : c ≠ '.' := by
    intro hcase
    subst hcase
    exact hpoint hc
  rcases Pieces.of_mem_takeSigned (hrun c hc) with rfl | haccepts
  · exact absurd rfl hother
  · rw [isClassChar, Bool.or_eq_true, beq_iff_eq] at haccepts
    exact haccepts.resolve_right hother

end Segment
end TreeSelect
