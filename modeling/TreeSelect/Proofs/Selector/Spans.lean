import TreeSelect.Proofs.Selector.Boundaries
import TreeSelect.Proofs.Selector.PseudoBehind

/-!
# Spans of segments

The segments of a selector are cut out of it one behind another, and what is not cut out is blank.
The text of a segment says all of it: read alone, it gives the segment again.

* `bounds_of_parseAt`: a segment is at or behind its cursor and ends beyond it.
* `parse_matched`: the text of a segment, read alone.
* `Tiles` and `tiles_of_chainFrom`: segments and blanks make up the selector.
-/

namespace TreeSelect

/-- A character of two texts that are joined stands in the first or in the second of them. -/
theorem Text.append_cons_eq_append {before behind s t : Text} {c : Char}
    (h : before ++ c :: behind = s ++ t) :
    (∃ more, s = before ++ c :: more) ∨ ∃ start, before = s ++ start ∧ t = start ++ c :: behind := by
  rcases List.append_eq_append_iff.1 h with ⟨more, hs, hmore⟩ | ⟨start, hbefore, ht⟩
  · cases more with
    | nil => exact .inr ⟨[], by simpa using hs.symm, by simpa using hmore.symm⟩
    | cons d more =>
      obtain ⟨rfl, -⟩ := List.cons.inj hmore
      exact .inl ⟨more, hs⟩
  · exact .inr ⟨start, hbefore, ht⟩

namespace Segment

/-! ## One segment -/

/-- Whether the span of a segment cuts the text of the segment out of the selector, between
characters. -/
def StandsIn (segment : Segment) (selector : Text) : Prop :=
  ∃ front back, selector = front ++ segment.matched ++ back ∧ front.bytes = segment.span.start ∧
    (front ++ segment.matched).bytes = segment.span.stop

/-- A segment is at or behind its cursor and ends beyond it. -/
theorem bounds_of_parseAt {selector : Text} {cursor : Nat} {segment : Segment}
    (h : parseAt selector cursor = .ok segment) :
    cursor ≤ segment.span.start ∧ segment.span.start < segment.span.stop ∧
      segment.span.stop ≤ selector.bytes := by
  unfold parseAt at h
  split at h
  case h_1 => cases h
  case h_2 rest hrest =>
    obtain ⟨⟨_, after⟩, hread, rfl⟩ := Attempt.map_eq_ok.1 h
    obtain ⟨front, rfl, rfl⟩ := Text.dropBytes?_eq_some_iff.1 hrest
    obtain ⟨blanks, rfl, -, hne, hspan⟩ := parts_of_read hread
    have hpos := Text.bytes_pos hne
    simp only [hspan, Text.bytes_append]
    omega

/-- The text of a segment, read alone, gives the segment again. -/
theorem parse_matched {selector : Text} {offset : Nat} {rest after : Text} {segment : Segment}
    (h : read selector offset rest = .ok (segment, after)) :
    parse segment.matched = .ok { segment with span := ⟨0, segment.matched.bytes⟩ } := by
  obtain ⟨pieces, attributes, hscan, hdescribes, hattributes, rfl⟩ := read_eq_ok_iff.1 h
  have hwritten : pieces.IsWritten := by
    have hpieces := Pieces.isWritten_scan (rest.dropWhile Text.isBlank)
    rwa [hscan] at hpieces
  have hagain : Pieces.scan pieces.text = (pieces, []) := by
    have hblanks : ∀ c ∈ ([] : Text), Text.isBlank c = true := by simp
    have htext := Pieces.scan_text hwritten hblanks
    rwa [List.append_nil] at htext
  have hwhole := read_whole (Pieces.begins_text hwritten hdescribes) hagain hdescribes hattributes
  have hparse : parse pieces.text = _ := parse_eq_ok_iff.2 ⟨[], hwhole⟩
  simpa [made] using hparse

/-! ## All segments -/

/-- Whether segments make up a text together with the blanks around them, one behind another; the
text begins `offset` bytes into the selector. -/
def Tiles (offset : Nat) (rest : Text) : List Segment → Prop
  | [] => ∀ c ∈ rest, Text.isBlank c = true
  | segment :: later =>
    ∃ blanks after, rest = blanks ++ (segment.matched ++ after) ∧
      (∀ c ∈ blanks, Text.isBlank c = true) ∧
        segment.span = ⟨offset + blanks.bytes, offset + blanks.bytes + segment.matched.bytes⟩ ∧
          Tiles segment.span.stop after later

theorem tiles_of_chainFrom {selector : Text} {offset : Nat} {rest : Text} {segments : List Segment}
    (h : chainFrom selector offset rest = .ok segments) : Tiles offset rest segments := by
  induction hlength : rest.length using Nat.strongRecOn generalizing offset rest segments with
  | ind length ih =>
    obtain ⟨segment, after, hread, hlast | hnext⟩ := chainFrom_eq_ok h
    all_goals obtain ⟨blanks, hrest, hblanks, -, hspan⟩ := parts_of_read hread
    · obtain ⟨hblank, rfl⟩ := hlast
      exact ⟨blanks, after, hrest, hblanks, hspan, List.all_eq_true.1 hblank⟩
    · obtain ⟨-, later, hlater, rfl⟩ := hnext
      have hshorter := length_lt_of_read hread
      exact ⟨blanks, after, hrest, hblanks, hspan, ih after.length (by omega) hlater rfl⟩

namespace Tiles

variable {offset : Nat} {rest : Text} {segments : List Segment}

theorem le_start (h : Tiles offset rest segments) :
    ∀ segment ∈ segments, offset ≤ segment.span.start := by
  induction segments generalizing offset rest with
  | nil => simp
  | cons first later ih =>
    obtain ⟨blanks, after, -, -, hspan, hlater⟩ := h
    intro segment hsegment
    rcases List.mem_cons.1 hsegment with rfl | hsegment
    · simp [hspan]
    · have hbehind := ih hlater segment hsegment
      simp only [hspan] at hbehind
      omega

/-- The spans lie apart, in the order of the segments. -/
theorem pairwise (h : Tiles offset rest segments) :
    segments.Pairwise (fun earlier later => earlier.span.stop ≤ later.span.start) := by
  induction segments generalizing offset rest with
  | nil => exact .nil
  | cons first later ih =>
    obtain ⟨blanks, after, -, -, -, hlater⟩ := h
    exact List.pairwise_cons.2 ⟨hlater.le_start, ih hlater⟩

theorem standsIn {front : Text} (h : Tiles front.bytes rest segments) :
    ∀ segment ∈ segments, segment.StandsIn (front ++ rest) := by
  induction segments generalizing front rest with
  | nil => simp
  | cons first later ih =>
    obtain ⟨blanks, after, rfl, -, hspan, hlater⟩ := h
    have hstop : (front ++ blanks ++ first.matched).bytes = first.span.stop := by
      simp [hspan, Nat.add_assoc]
    intro segment hsegment
    rcases List.mem_cons.1 hsegment with rfl | hsegment
    · exact ⟨front ++ blanks, after, by simp, by simp [hspan], hstop⟩
    · rw [← hstop] at hlater
      simpa using ih hlater segment hsegment

/-- A character that is not blank is inside one of the spans. -/
theorem covers (h : Tiles offset rest segments) {before behind : Text} {c : Char}
    (hrest : before ++ c :: behind = rest) (hc : Text.isBlank c = false) :
    ∃ segment ∈ segments, segment.span.start ≤ offset + before.bytes ∧
      offset + before.bytes + c.utf8Size ≤ segment.span.stop := by
  induction segments generalizing offset rest before with
  | nil =>
    have hblank := h c (by simp [← hrest])
    rw [hc] at hblank
    cases hblank
  | cons first later ih =>
    obtain ⟨blanks, after, rfl, hblanks, hspan, hlater⟩ := h
    rcases Text.append_cons_eq_append hrest with ⟨more, rfl⟩ | ⟨start, rfl, hstart⟩
    · have hblank := hblanks c (by simp)
      rw [hc] at hblank
      cases hblank
    -- behind the blanks, it is in the text of the first segment or behind that
    rcases Text.append_cons_eq_append hstart.symm with ⟨more, hmatched⟩ | ⟨start, rfl, hlast⟩
    · refine ⟨first, List.mem_cons_self, ?_⟩
      simp only [hspan, hmatched, Text.bytes_append, Text.bytes_cons]
      omega
    · obtain ⟨segment, hsegment, hinside⟩ := ih hlater hlast.symm
      refine ⟨segment, List.mem_cons_of_mem first hsegment, ?_⟩
      simp only [hspan, Text.bytes_append] at hinside ⊢
      omega

end Tiles

end Segment
end TreeSelect
