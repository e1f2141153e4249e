import Mathlib.Data.List.TakeWhile
import TreeSelect.Proofs.Text.Pieces
import TreeSelect.Selector.Branches
import TreeSelect.Selector.Segment

/-!
# More text behind a selector list

The scan for commas carries its nesting from one character to the next, so what it does with a text
depends on the text before it only through the nesting there (`cutBranches_append`).  A list that is
followed by more text keeps its cuts but for the last one, which the new text goes on with.
-/

namespace TreeSelect

namespace Text

/-! ## Trimming -/

theorem trim_of_blank {s : Text} (hs : ∀ c ∈ s, isBlank c = true) : s.trim = [] := by
  have hstart : s.trimStart = [] := by simpa [trimStart, List.dropWhile_eq_nil_iff] using hs
  simp [trim, hstart, trimEnd]

theorem trim_append {blanks : Text} (h : ∀ c ∈ blanks, isBlank c = true) (s : Text) :
    trim (blanks ++ s) = s.trim := by
  rw [trim, trimStart, List.dropWhile_append_of_pos h]
  rfl

theorem trim_cons {blank : Char} (h : isBlank blank = true) (s : Text) :
    trim (blank :: s) = s.trim :=
  trim_append (List.forall_mem_singleton.2 h) s

/-- Trimming at the end takes blanks away. -/
theorem exists_trimEnd (s : Text) :
    ∃ blanks, (∀ c ∈ blanks, isBlank c = true) ∧ s = s.trimEnd ++ blanks := by
  refine ⟨(s.reverse.takeWhile isBlank).reverse, ?_, ?_⟩
  · intro c hc
    exact List.mem_takeWhile_imp (List.mem_reverse.1 hc)
  · rw [trimEnd, ← List.reverse_append, List.takeWhile_append_dropWhile, List.reverse_reverse]

theorem trimEnd_append_cons {c : Char} (hc : isBlank c = false) (s rest : Text) :
    trimEnd (s ++ c :: rest) = s ++ c :: rest.trimEnd := by
  simp only [trimEnd, List.reverse_append, List.reverse_cons, List.append_assoc]
  by_cases hrest : ∀ d ∈ rest.reverse, isBlank d = true
  · simp [List.dropWhile_append_of_pos hrest, List.dropWhile_eq_nil_iff.2 hrest, hc]
  · have hnot : rest.reverse.dropWhile isBlank ≠ [] := fun h => hrest (List.dropWhile_eq_nil_iff.1 h)
    simp [List.dropWhile_append, hnot]

/-- A text is the text trimmed between blanks. -/
theorem exists_trim (s : Text) :
    ∃ blanks, (∀ c ∈ blanks, isBlank c = true) ∧ s = s.takeWhile isBlank ++ (s.trim ++ blanks) := by
  obtain ⟨blanks, hblanks, htrim⟩ := exists_trimEnd s.trimStart
  refine ⟨blanks, hblanks, ?_⟩
  rw [trim, ← htrim, trimStart, List.takeWhile_append_dropWhile]

theorem mem_of_mem_trim {s : Text} {c : Char} (h : c ∈ s.trim) : c ∈ s := by
  obtain ⟨blanks, -, hs⟩ := exists_trim s
  rw [hs]
  exact List.mem_append_right _ (List.mem_append_left _ h)

/-- Something is left of a text if it has a character that is not blank. -/
theorem trim_ne_nil_iff {s : Text} : s.trim ≠ [] ↔ ∃ c ∈ s, isBlank c = false := by
  constructor
  · intro h
    by_contra hblank
    refine h (trim_of_blank fun c hc => ?_)
    simpa using fun hnot => hblank ⟨c, hc, hnot⟩
  · rintro ⟨c, hc, hnot⟩ h
    obtain ⟨blanks, hblanks, hs⟩ := exists_trim s
    rw [hs, h, List.nil_append, List.mem_append] at hc
    have hblank : isBlank c = true := hc.elim List.mem_takeWhile_imp (hblanks c)
    rw [hblank] at hnot
    cases hnot

end Text

/-! ## Cuts -/

theorem cutBranches_ne_nil (nesting : Nesting) (list : Text) : cutBranches nesting list ≠ [] := by
  induction list generalizing nesting with
  | nil =>
    intro h
    cases h
  | cons c rest ih =>
    rw [cutBranches]
    split
    · exact List.cons_ne_nil _ _
    · cases hcuts : cutBranches (nesting.next c) rest with
      | nil => exact absurd hcuts (ih _)
      | cons => exact List.cons_ne_nil _ _

/-- A selector list has a branch. -/
theorem branches_ne_nil (list : Text) : branches list ≠ [] := by
  rw [branches]
  cases hlist : cutBranches {} list with
  | nil => exact absurd hlist (cutBranches_ne_nil {} list)
  | cons => exact List.cons_ne_nil _ _

/-- The nesting behind a text. -/
def Nesting.after (nesting : Nesting) (s : Text) : Nesting := s.foldl Nesting.next nesting

theorem Nesting.isTop_iff {nesting : Nesting} : nesting.isTop = true ↔ nesting = {} := by
  obtain ⟨depth, quote⟩ := nesting
  simp [Nesting.isTop]

/-- More text behind a list goes on with the last of its cuts, at the nesting behind it. -/
theorem cutBranches_append (nesting : Nesting) (s : Text) :
    ∃ before last, cutBranches nesting s = before ++ [last] ∧
      s = before.flatMap (· ++ [',']) ++ last ∧
        ∀ t, cutBranches nesting (s ++ t) =
          before ++ (cutBranches (nesting.after s) t).modifyHead (last ++ ·) := by
  induction s generalizing nesting with
  | nil => exact ⟨[], [], rfl, rfl, fun t => (congrFun List.modifyHead_id _).symm⟩
  | cons c s ih =>
    by_cases hcomma : c = ',' ∧ nesting.isTop
    · obtain ⟨before, last, hcuts, hs, happend⟩ := ih nesting
      have hnext : nesting.next c = nesting := by
        rw [hcomma.1, Nesting.isTop_iff.1 hcomma.2]
        rfl
      refine ⟨[] :: before, last, ?_, ?_, fun t => ?_⟩
      · rw [cutBranches, if_pos hcomma, hcuts]
        rfl
      · rw [List.flatMap_cons, List.append_assoc, ← hs, hcomma.1]
        rfl
      · rw [List.cons_append, cutBranches, if_pos hcomma, happend, Nesting.after, Nesting.after,
          List.foldl_cons, hnext]
        rfl
    · obtain ⟨before, last, hcuts, hs, happend⟩ := ih (nesting.next c)
      have hlong : ∀ t, cutBranches nesting (c :: s ++ t) =
          (before ++ (cutBranches (nesting.after (c :: s)) t).modifyHead (last ++ ·)).modifyHead
            (c :: ·) := by
        intro t
        rw [List.cons_append, cutBranches, if_neg hcomma, happend]
        rfl
      cases before with
      | nil =>
        refine ⟨[], c :: last, ?_, ?_, fun t => ?_⟩
        · rw [cutBranches, if_neg hcomma, hcuts]
          rfl
        · rw [hs]
          rfl
        · rw [hlong, List.nil_append, List.modifyHead_modifyHead]
          rfl
      | cons first before =>
        refine ⟨(c :: first) :: before, last, ?_, ?_, fun t => ?_⟩
        · rw [cutBranches, if_neg hcomma, hcuts]
          rfl
        · rw [hs]
          rfl
        · rw [hlong]
          rfl

/-- A comma that no bracket and no quote mark keeps in its branch ends the branch. -/
theorem cutBranches_comma {s : Text} (h : Nesting.after {} s = {}) (t : Text) :
    cutBranches {} (s ++ ',' :: t) = cutBranches {} s ++ cutBranches {} t := by
  obtain ⟨before, last, hcuts, -, happend⟩ := cutBranches_append {} s
  have htop : ',' = ',' ∧ Nesting.isTop {} = true := ⟨rfl, rfl⟩
  rw [happend, hcuts, h, cutBranches, if_pos htop]
  simp

/-- Any other comma goes on with the last cut. -/
theorem cutBranches_comma_inside {s : Text} (h : Nesting.after {} s ≠ {}) (t : Text) :
    ∃ before last cut others, cutBranches {} s = before ++ [last] ∧
      s = before.flatMap (· ++ [',']) ++ last ∧
        cutBranches {} (s ++ ',' :: t) = before ++ (last ++ ',' :: cut) :: others := by
  obtain ⟨before, last, hcuts, hs, happend⟩ := cutBranches_append {} s
  have hnot : ¬ (',' = ',' ∧ Nesting.isTop (.after {} s) = true) := fun hcase =>
    h (Nesting.isTop_iff.1 hcase.2)
  have hlong := happend (',' :: t)
  rw [cutBranches, if_neg hnot] at hlong
  cases hmore : cutBranches ((Nesting.after {} s).next ',') t with
  | nil => exact absurd hmore (cutBranches_ne_nil _ t)
  | cons cut others =>
    rw [hmore] at hlong
    exact ⟨before, last, cut, others, hcuts, hs, hlong⟩

theorem cutBranches_of_not_mem {nesting : Nesting} {s : Text} (h : ',' ∉ s) :
    cutBranches nesting s = [s] := by
  induction s generalizing nesting with
  | nil => rfl
  | cons c s ih =>
    rw [List.mem_cons, not_or] at h
    rw [cutBranches, if_neg fun hcase => h.1 hcase.1.symm, ih h.2]
    rfl

/-- Where a list has one branch, nothing is cut off. -/
theorem eq_of_cutBranches {nesting : Nesting} {s cut : Text} (h : cutBranches nesting s = [cut]) :
    cut = s := by
  obtain ⟨before, last, hcuts, hs, -⟩ := cutBranches_append nesting s
  rw [h] at hcuts
  obtain ⟨rfl, rfl⟩ : before = [] ∧ last = cut := by
    simpa [List.singleton_eq_append_iff] using hcuts
  exact hs.symm

/-- A text that is not cut goes before the first cut of what stands behind it. -/
theorem cutBranches_append_of_uncut {nesting : Nesting} {s : Text}
    (hs : cutBranches nesting s = [s]) (t : Text) :
    cutBranches nesting (s ++ t) = (cutBranches (nesting.after s) t).modifyHead (s ++ ·) := by
  obtain ⟨before, last, hcuts, -, happend⟩ := cutBranches_append nesting s
  rw [hs] at hcuts
  obtain ⟨rfl, rfl⟩ : before = [] ∧ last = s := by
    simpa [List.singleton_eq_append_iff] using hcuts
  exact happend t

/-- Text without commas continues the last branch, here the only one. -/
theorem cutBranches_append_of_not_mem {nesting : Nesting} {s t : Text}
    (hs : cutBranches nesting s = [s]) (ht : ',' ∉ t) :
    cutBranches nesting (s ++ t) = [s ++ t] := by
  rw [cutBranches_append_of_uncut hs, cutBranches_of_not_mem ht]
  rfl

/-! ## Branches -/

theorem branchesFrom_text (offset : Nat) (cuts : List Text) :
    (branchesFrom offset cuts).map Branch.text = cuts.map Text.trim := by
  induction cuts generalizing offset with
  | nil => rfl
  | cons cut cuts ih => rw [branchesFrom, List.map_cons, List.map_cons, ih, Branch.ofCut]

/-- The cuts before a branch say where it begins. -/
theorem branchesFrom_append (offset : Nat) (cuts others : List Text) :
    branchesFrom offset (cuts ++ others) =
      branchesFrom offset cuts ++
        branchesFrom (offset + Text.bytes (cuts.flatMap (· ++ [',']))) others := by
  induction cuts generalizing offset with
  | nil => rfl
  | cons cut cuts ih =>
    have hcomma : Text.bytes [','] = 1 := by decide
    rw [List.cons_append, branchesFrom, branchesFrom, ih, List.flatMap_cons, Text.bytes_append,
      Text.bytes_append, hcomma, List.cons_append, Nat.add_assoc, Nat.add_assoc, Nat.add_assoc]

/-- What is said of the segments of branches is said of those that are read; so it can be computed. -/
theorem forall_segments {list : List Branch} {p : Segment → Prop}
    (h : ∀ branch ∈ list, ∀ segment ∈ (Segment.chain branch.text).toOption.getD [], p segment) :
    ∀ branch ∈ list, ∀ segments, Segment.chain branch.text = .ok segments →
      ∀ segment ∈ segments, p segment := by
  intro branch hbranch segments hchain
  have hsegments := h branch hbranch
  rw [hchain] at hsegments
  exact hsegments

/-- Of branches that can all be read, one is read to segments of which something holds, if it holds of
the segments that are computed for one of them. -/
theorem exists_segments {list : List Branch} {p : List Segment → Prop}
    (h : ∀ branch ∈ list, (Segment.chain branch.text).isOk = true) :
    (∃ branch ∈ list, ∃ segments, Segment.chain branch.text = .ok segments ∧ p segments) ↔
      ∃ branch ∈ list, p ((Segment.chain branch.text).toOption.getD []) := by
  refine exists_congr fun branch => and_congr_right fun hbranch => ?_
  have hok := h branch hbranch
  cases hchain : Segment.chain branch.text with
  | error error => simp [hchain, Except.isOk, Except.toBool] at hok
  | ok segments => simp [Except.toOption]

end TreeSelect
