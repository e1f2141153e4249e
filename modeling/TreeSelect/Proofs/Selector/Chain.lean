import TreeSelect.Proofs.Attempt
import TreeSelect.Selector.Segment

/-!
# Chains of segments

A chain is read one segment after another.  `chainFrom_eq_ok` takes one round of the reading apart,
and `chainFrom_last` and `chainFrom_more` put it together again.
-/

namespace TreeSelect.Segment

/-- One round of the chain: the segment that it reads, and the segments behind it. -/
theorem chainFrom_eq_ok {selector : Text} {offset : Nat} {rest : Text} {segments : List Segment}
    (h : chainFrom selector offset rest = .ok segments) :
    ∃ segment after, read selector offset rest = .ok (segment, after) ∧
      (after.all Text.isBlank = true ∧ segments = [segment] ∨
        after.all Text.isBlank = false ∧
          ∃ later, chainFrom selector segment.span.stop after = .ok later ∧
            segments = segment :: later) := by
  rw [chainFrom.eq_def] at h
  split at h
  case h_1 => cases h
  case h_2 segment after hread =>
    refine ⟨segment, after, hread, ?_⟩
    split at h
    case isTrue hblank =>
      cases h
      exact .inl ⟨hblank, rfl⟩
    case isFalse hblank =>
      obtain ⟨later, hlater, hsegments⟩ := Attempt.map_eq_ok.1 h
      exact .inr ⟨by simpa using hblank, later, hlater, hsegments.symm⟩

/-- The last segment of a chain is the one that only blanks follow. -/
theorem chainFrom_last {selector : Text} {offset : Nat} {rest after : Text} {segment : Segment}
    (hread : read selector offset rest = .ok (segment, after))
    (hblank : after.all Text.isBlank = true) :
    chainFrom selector offset rest = .ok [segment] := by
  rw [chainFrom.eq_def, hread]
  simp only [hblank, if_true]

/-- A segment that more follows is the first of the chain. -/
theorem chainFrom_more {selector : Text} {offset : Nat} {rest after : Text} {segment : Segment}
    {later : List Segment} (hread : read selector offset rest = .ok (segment, after))
    (hblank : after.all Text.isBlank = false)
    (hlater : chainFrom selector segment.span.stop after = .ok later) :
    chainFrom selector offset rest = .ok (segment :: later) := by
  rw [chainFrom.eq_def, hread]
  simp only [hblank, hlater]
  rfl

/-- A selector that is read has a segment. -/
theorem chainFrom_ne_nil {selector : Text} {offset : Nat} {rest : Text} {segments : List Segment}
    (h : chainFrom selector offset rest = .ok segments) : segments ≠ [] := by
  obtain ⟨segment, -, -, ⟨-, rfl⟩ | ⟨-, later, -, rfl⟩⟩ := chainFrom_eq_ok h
  · exact List.cons_ne_nil segment []
  · exact List.cons_ne_nil segment later

/-- Each segment of a chain has been read somewhere in the selector. -/
theorem exists_read_of_mem {selector : Text} {offset : Nat} {rest : Text} {segments : List Segment}
    (h : chainFrom selector offset rest = .ok segments) :
    ∀ segment ∈ segments, ∃ place start after,
      read selector place start = .ok (segment, after) := by
  induction hlength : rest.length using Nat.strongRecOn generalizing offset rest segments with
  | ind length ih =>
    obtain ⟨first, after, hread, hlast | hnext⟩ := chainFrom_eq_ok h
    · obtain ⟨-, rfl⟩ := hlast
      intro segment hsegment
      rw [List.mem_singleton.1 hsegment]
      exact ⟨offset, rest, after, hread⟩
    · obtain ⟨-, later, hlater, rfl⟩ := hnext
      have hshorter := length_lt_of_read hread
      intro segment hsegment
      rcases List.mem_cons.1 hsegment with rfl | hsegment
      · exact ⟨offset, rest, after, hread⟩
      · exact ih after.length (by omega) hlater rfl segment hsegment

end TreeSelect.Segment
