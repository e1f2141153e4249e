import Mathlib.Data.List.Forall2
import TreeSelect.Proofs.Selector.Branches
import TreeSelect.Proofs.Text.Digits

/-!
# Splitting a selector list

A selector list is cut at the commas that neither a bracket nor a quote mark keeps in a branch, and
the branches are the cuts without the blanks around them.  `branches_lossless` says that nothing of
the list is lost, that a branch is the only branch of itself, and that what stands behind such a
comma is split as if it stood alone.

* `uncut_of_cutBranches`: nothing is open where a cut begins, so that it is scanned as it would be
  alone.
* `uncut_of_padded`: blanks open and close nothing, so that they can be left out.
* `standsIn_branchesFrom` and `branchesFrom_shift`: the places of branches.
-/

namespace TreeSelect

/-- What is left of a trimmed text has no blanks at its ends. -/
theorem Text.isTrimmed_trim (s : Text) : s.trim.IsTrimmed := by
  obtain ⟨blanks, -, hstart⟩ := exists_trimEnd s.trimStart
  constructor
  · intro c hc
    have hhead : c ∈ (s.dropWhile isBlank).head? := by
      show c ∈ s.trimStart.head?
      rw [hstart, List.head?_append, show s.trimStart.trimEnd.head? = some c from hc]
      rfl
    exact head_dropWhile c hhead
  · intro c hc
    rw [trim, trimEnd, List.getLast?_reverse] at hc
    exact head_dropWhile c hc

/-! ## Cuts -/

/-- The commas join the cuts to the list. -/
theorem intercalate_cutBranches (nesting : Nesting) (list : Text) :
    [','].intercalate (cutBranches nesting list) = list := by
  induction list generalizing nesting with
  | nil => rfl
  | cons c rest ih =>
    rw [cutBranches]
    split
    case isTrue hcomma =>
      rw [Text.intercalate_nil_cons ',' (cutBranches_ne_nil nesting rest), ih, hcomma.1]
    case isFalse => rw [Text.intercalate_modifyHead ',' (cutBranches_ne_nil _ rest), ih]

/-- A cut is cut no further.  Each one but the first begins with nothing open. -/
theorem uncut_of_cutBranches {nesting : Nesting} {list first : Text} {others : List Text}
    (h : cutBranches nesting list = first :: others) :
    cutBranches nesting first = [first] ∧ ∀ cut ∈ others, cutBranches {} cut = [cut] := by
  induction list generalizing nesting first others with
  | nil =>
    cases h
    exact ⟨rfl, by simp⟩
  | cons c rest ih =>
    rw [cutBranches] at h
    split at h
    case isTrue hcomma =>
      cases h
      rw [Nesting.isTop_iff.1 hcomma.2]
      obtain ⟨second, later, hcuts⟩ := List.exists_cons_of_ne_nil (cutBranches_ne_nil {} rest)
      obtain ⟨hsecond, hlater⟩ := ih hcuts
      rw [hcuts]
      exact ⟨rfl, List.forall_mem_cons.2 ⟨hsecond, hlater⟩⟩
    case isFalse hcomma =>
      obtain ⟨second, later, hcuts⟩ :=
        List.exists_cons_of_ne_nil (cutBranches_ne_nil (nesting.next c) rest)
      obtain ⟨hsecond, hlater⟩ := ih hcuts
      rw [hcuts] at h
      cases h
      refine ⟨?_, hlater⟩
      rw [cutBranches, if_neg hcomma, hsecond]
      rfl

/-- The beginning of a text that is not cut is not cut. -/
theorem uncut_of_append {nesting : Nesting} {s t : Text}
    (h : cutBranches nesting (s ++ t) = [s ++ t]) : cutBranches nesting s = [s] := by
  obtain ⟨before, last, hcuts, hs, happend⟩ := cutBranches_append nesting s
  have hlength := congrArg List.length (happend t)
  have hmore := List.length_pos_iff.2 (cutBranches_ne_nil (nesting.after s) t)
  rw [h, List.length_append, List.length_modifyHead, List.length_singleton] at hlength
  obtain rfl : before = [] := List.eq_nil_of_length_eq_zero (by omega)
  rw [hcuts, hs]
  rfl

/-- The characters that open or close something. -/
def Nesting.signs : List Char := ['\'', '"', '[', '(', ']', ')']

/-- Outside of quotations, other characters leave the nesting as it is. -/
theorem Nesting.next_of_not_mem {c : Char} (h : c ∉ signs) (depth : Nat) :
    next ⟨depth, none⟩ c = ⟨depth, none⟩ := by
  simp only [signs, List.mem_cons, List.not_mem_nil, or_false, not_or] at h
  simp [next, h]

/-- Blanks open and close nothing. -/
theorem Nesting.after_of_blank {blanks : Text} (h : ∀ c ∈ blanks, Text.isBlank c = true) :
    Nesting.after {} blanks = {} := by
  have hsigns : ∀ sign ∈ signs, Text.isBlank sign = false := by decide
  induction blanks with
  | nil => rfl
  | cons c rest ih =>
    obtain ⟨hc, hrest⟩ := List.forall_mem_cons.1 h
    have hsign : c ∉ signs := by
      intro hmem
      rw [hsigns c hmem] at hc
      cases hc
    rw [Nesting.after, List.foldl_cons, next_of_not_mem hsign]
    exact ih hrest

/-- Without blanks around it, a text that is not cut is not cut either. -/
theorem uncut_of_padded {before middle behind : Text}
    (hbefore : ∀ c ∈ before, Text.isBlank c = true)
    (h : cutBranches {} (before ++ (middle ++ behind)) = [before ++ (middle ++ behind)]) :
    cutBranches {} middle = [middle] := by
  have hcomma : ',' ∉ before := fun hmem => absurd (hbefore ',' hmem) (by decide)
  rw [cutBranches_append_of_uncut (cutBranches_of_not_mem hcomma),
    Nesting.after_of_blank hbefore] at h
  obtain ⟨cut, others, hcuts⟩ :=
    List.exists_cons_of_ne_nil (cutBranches_ne_nil {} (middle ++ behind))
  rw [hcuts, List.modifyHead_cons, List.cons.injEq] at h
  obtain ⟨hcut, rfl⟩ := h
  rw [List.append_cancel_left hcut] at hcuts
  exact uncut_of_append hcuts

/-! ## Branches -/

namespace Branch

/-- Whether a branch stands at its offset in a list. -/
def StandsIn (branch : Branch) (list : Text) : Prop :=
  ∃ front back, list = front ++ branch.text ++ back ∧ front.bytes = branch.offset

/-- Whether a text is a branch with blanks around it. -/
def PadsTo (branch : Branch) (cut : Text) : Prop :=
  ∃ before behind, cut = before ++ (branch.text ++ behind) ∧
    (∀ c ∈ before, Text.isBlank c = true) ∧ ∀ c ∈ behind, Text.isBlank c = true

/-- The branch at a place further on. -/
def shift (amount : Nat) (branch : Branch) : Branch :=
  { branch with offset := branch.offset + amount }

theorem padsTo_ofCut (offset : Nat) (cut : Text) : (ofCut offset cut).PadsTo cut := by
  obtain ⟨blanks, hblanks, hsplit⟩ := Text.exists_trim cut
  exact ⟨_, blanks, hsplit, List.all_eq_true.1 List.all_takeWhile, hblanks⟩

end Branch

theorem padsTo_branchesFrom (offset : Nat) (cuts : List Text) :
    List.Forall₂ Branch.PadsTo (branchesFrom offset cuts) cuts := by
  induction cuts generalizing offset with
  | nil => exact .nil
  | cons cut cuts ih => exact .cons (Branch.padsTo_ofCut offset cut) (ih _)

/-- The branches of cuts stand in what the commas join the cuts to. -/
theorem standsIn_branchesFrom {front : Text} {cuts : List Text} {branch : Branch}
    (h : branch ∈ branchesFrom front.bytes cuts) :
    branch.StandsIn (front ++ [','].intercalate cuts) := by
  induction cuts generalizing front with
  | nil => cases h
  | cons cut cuts ih =>
    rw [Text.intercalate_cons]
    rcases List.mem_cons.1 h with rfl | h
    · obtain ⟨blanks, -, hsplit⟩ := Text.exists_trim cut
      refine ⟨front ++ cut.takeWhile Text.isBlank, blanks ++ cuts.flatMap ([','] ++ ·), ?_,
        Text.bytes_append _ _⟩
      have hcut := congrArg (front ++ · ++ cuts.flatMap ([','] ++ ·)) hsplit
      simpa [Branch.ofCut] using hcut
    · have hplace : front.bytes + cut.bytes + 1 = Text.bytes (front ++ cut ++ [',']) := by
        have hcomma : Text.bytes [','] = 1 := by decide
        rw [Text.bytes_append, Text.bytes_append, hcomma]
      rw [hplace] at h
      cases cuts with
      | nil => cases h
      | cons second later =>
        have hlater := ih h
        rw [Text.intercalate_cons] at hlater
        simpa using hlater

theorem branchesFrom_shift (offset amount : Nat) (cuts : List Text) :
    branchesFrom (offset + amount) cuts = (branchesFrom offset cuts).map (Branch.shift amount) := by
  induction cuts generalizing offset with
  | nil => rfl
  | cons cut cuts ih =>
    have hnext : offset + amount + cut.bytes + 1 = offset + cut.bytes + 1 + amount := by omega
    rw [branchesFrom, branchesFrom, List.map_cons, ← ih, hnext, Branch.ofCut, Branch.ofCut,
      Branch.shift, Nat.add_right_comm]

/-- A trimmed text that is not cut is its only branch. -/
theorem branches_of_cutBranches {s : Text} (hcuts : cutBranches {} s = [s]) (htrim : s.IsTrimmed) :
    branches s = [⟨0, s⟩] := by
  have hfirst : s.takeWhile Text.isBlank = [] := (Text.takeWhile_of_head htrim.1).1
  rw [branches, hcuts, branchesFrom, branchesFrom, Branch.ofCut, hfirst, Text.trim_of_isTrimmed htrim]
  rfl

/-- A branch is the only branch of itself. -/
theorem branches_of_mem {list : Text} {branch : Branch} (h : branch ∈ branches list) :
    branch.text.IsTrimmed ∧ branches branch.text = [⟨0, branch.text⟩] := by
  have htext : branch.text ∈ (cutBranches {} list).map Text.trim := by
    rw [← branchesFrom_text 0]
    exact List.mem_map_of_mem h
  obtain ⟨cut, hcut, htrim⟩ := List.mem_map.1 htext
  have huncut : cutBranches {} cut = [cut] := by
    obtain ⟨first, others, hcuts⟩ := List.exists_cons_of_ne_nil (cutBranches_ne_nil {} list)
    obtain ⟨hfirst, hothers⟩ := uncut_of_cutBranches hcuts
    rw [hcuts] at hcut
    rcases List.mem_cons.1 hcut with rfl | hcut
    · exact hfirst
    · exact hothers cut hcut
  rw [← htrim]
  refine ⟨Text.isTrimmed_trim cut, branches_of_cutBranches ?_ (Text.isTrimmed_trim cut)⟩
  obtain ⟨blanks, -, hsplit⟩ := Text.exists_trim cut
  rw [hsplit] at huncut
  exact uncut_of_padded (List.all_eq_true.1 List.all_takeWhile) huncut

/-- Behind a comma that ends a branch, the branches are those of what stands there, further on. -/
theorem branches_append {list : Text} (h : Nesting.after {} list = {}) (more : Text) :
    branches (list ++ ',' :: more) =
      branches list ++ (branches more).map (Branch.shift (list.bytes + 1)) := by
  obtain ⟨before, last, hcuts, hlist, -⟩ := cutBranches_append {} list
  have hbytes : Text.bytes ((before ++ [last]).flatMap (· ++ [','])) = list.bytes + 1 := by
    have hcomma : Text.bytes [','] = 1 := by decide
    rw [hlist, List.flatMap_append, List.flatMap_singleton, ← List.append_assoc, Text.bytes_append,
      hcomma]
  rw [branches, cutBranches_comma h, branchesFrom_append, hcuts, hbytes, branchesFrom_shift,
    ← hcuts]
  rfl

/-- Splitting a selector list loses nothing.  The branches are trimmed and stand at their offsets;
with blanks around them and commas between them they make up the list; each of them is the only
branch of itself.  Behind a list that leaves nothing open, a comma and more text add the branches of
that text. -/
theorem branches_lossless (list : Text) :
    (∀ branch ∈ branches list, branch.text.IsTrimmed ∧ branch.StandsIn list ∧
        branches branch.text = [⟨0, branch.text⟩]) ∧
      (∃ cuts, list = [','].intercalate cuts ∧
        List.Forall₂ Branch.PadsTo (branches list) cuts) ∧
        (Nesting.after {} list = {} → ∀ more, branches (list ++ ',' :: more) =
          branches list ++ (branches more).map (Branch.shift (list.bytes + 1))) := by
  have hjoined := intercalate_cutBranches {} list
  refine ⟨fun branch hbranch => ?_, ⟨cutBranches {} list, hjoined.symm, ?_⟩, branches_append⟩
  · obtain ⟨htrimmed, honly⟩ := branches_of_mem hbranch
    have hstands : branch.StandsIn ([] ++ [','].intercalate (cutBranches {} list)) :=
      standsIn_branchesFrom hbranch
    rw [List.nil_append, hjoined] at hstands
    exact ⟨htrimmed, hstands, honly⟩
  · exact padsTo_branchesFrom 0 (cutBranches {} list)

/-- Commas in quote marks and in parentheses, a bracket that is closed too often, and a wide
blank. -/
theorem branches_lossless_quotes :
    let list := " a[title='x,y'] ,\u2003b]:is(c,d)".toList
    let first : Branch := ⟨1, "a[title='x,y']".toList⟩
    let second : Branch := ⟨20, "b]:is(c,d)".toList⟩
    Nesting.after {} list = {} ∧ branches list = [first, second] ∧ second.StandsIn list ∧
      branches second.text = [⟨0, second.text⟩] ∧
        branches (list ++ ", em".toList) = [first, second, ⟨32, "em".toList⟩] := by
  intro list first second
  have hclosed : Nesting.after {} list = {} := by decide +kernel
  have hlist : branches list = [first, second] := by decide +kernel
  obtain ⟨hbranches, -, happend⟩ := branches_lossless list
  obtain ⟨-, hstands, honly⟩ := hbranches second (by simp [hlist])
  refine ⟨hclosed, hlist, hstands, honly, ?_⟩
  exact (happend hclosed " em".toList).trans (by decide +kernel)

end TreeSelect
