import TreeSelect.Proofs.Compiler.Memoisation
import TreeSelect.Proofs.Path.Combinators
import TreeSelect.Proofs.Selector.Branches

/-!
# Commas between selector lists

Two selector lists with a comma between them are one list.  The comma ends a branch unless a bracket
or a quote mark of the first list is still open there, and then the last branch of the first list
goes on behind it.  A group of a segment ends at its first closing bracket, whatever has been opened
in it, so that a list can compile and leave something open; the comma behind it then belongs to no
piece.  `compile_comma` is the law with this condition.
-/

namespace TreeSelect

namespace Compiler

/-! ## What a list compiles to -/

/-- Where branches begin matters only for errors. -/
theorem mapM_directBranch_eq_ok {whole : Text} {axis : Path.Axis} {list : List Branch}
    {texts : List Text} :
    list.mapM (directBranch whole axis) = .ok texts ↔
      (list.map Branch.text).mapM (pathText · axis) = .ok texts := by
  induction list generalizing texts with
  | nil => rfl
  | cons branch list ih =>
    rw [List.map_cons, List.mapM_cons, List.mapM_cons, Attempt.bind_eq_ok, Attempt.bind_eq_ok]
    simp only [directBranch, Attempt.mapError_eq_ok, Attempt.bind_eq_ok, ih]

/-- A list compiles to the joined texts of its trimmed cuts. -/
theorem compile_eq_ok {list text : Text} :
    (compile .empty false list .css).1 = .ok text ↔
      ∃ texts, ((cutBranches {} list).map Text.trim).mapM (pathText · .descendant) = .ok texts ∧
        ['|'].intercalate texts = text := by
  have hspec := (compileBranches_spec list Cache.coherent_empty (branches list)).1
  show (compileBranches list .empty (branches list)).1.map (joinBranches false) = .ok text ↔ _
  rw [hspec, Attempt.map_eq_ok]
  simp only [mapM_directBranch_eq_ok, branches, branchesFrom_text]
  rfl

/-! ## Two lists -/

/-- Behind a list that leaves nothing open, a comma joins what the two lists compile to. -/
theorem compile_joined {a b first second : Text}
    (ha : (compile .empty false a .css).1 = .ok first)
    (hb : (compile .empty false b .css).1 = .ok second) (hclosed : Nesting.after {} a = {}) :
    (compile .empty false (a ++ ", ".toList ++ b) .css).1 = .ok (first ++ '|' :: second) := by
  obtain ⟨texts, htexts, rfl⟩ := compile_eq_ok.1 ha
  obtain ⟨others, hothers, rfl⟩ := compile_eq_ok.1 hb
  refine compile_eq_ok.2 ⟨texts ++ others, ?_, ?_⟩
  · have hcuts : cutBranches {} (a ++ ", ".toList ++ b) =
        cutBranches {} a ++ cutBranches {} (' ' :: b) := by
      rw [List.append_assoc]
      exact cutBranches_comma hclosed (' ' :: b)
    have hblank : (cutBranches {} (' ' :: b)).map Text.trim = (cutBranches {} b).map Text.trim := by
      have hskip : cutBranches {} (' ' :: b) = (cutBranches {} b).modifyHead (' ' :: ·) := by
        rw [cutBranches, if_neg (by decide)]
        rfl
      rw [hskip]
      cases cutBranches {} b with
      | nil => rfl
      | cons cut cuts => simp [Text.trim_cons (by decide : Text.isBlank ' ' = true)]
    rw [hcuts, List.map_append, hblank, List.mapM_append, htexts, hothers]
    rfl
  · have hleft := Attempt.mapM_ne_nil htexts (by simpa using cutBranches_ne_nil {} a)
    have hright := Attempt.mapM_ne_nil hothers (by simpa using cutBranches_ne_nil {} b)
    rw [Text.intercalate_append hleft hright, List.append_assoc]
    rfl

/-- A comma behind a trimmed branch is where its compilation fails; the error is told as one of the
whole list. -/
theorem directBranch_comma {cut text : Text} (h : pathText cut.trim .descendant = .ok text)
    (whole : Text) (offset : Nat) (rest : Text) :
    directBranch whole .descendant (.ofCut offset (cut ++ ',' :: rest)) =
      .error (.invalid whole (offset + cut.bytes) (.unexpected ',')) := by
  obtain ⟨path, hpath, -⟩ := Attempt.map_eq_ok.1 h
  obtain ⟨blanks, hblanks, hcut⟩ := Text.exists_trim cut
  have hsome : cut.all Text.isBlank = false := by
    by_contra hall
    have hnil := Text.trim_of_blank (List.all_eq_true.1 (by simpa using hall))
    have hblank := (Path.takeChild_of_ofSelector hpath).2
    rw [hnil] at hblank
    cases hblank
  obtain ⟨htake, hdrop⟩ := Text.blanks_append hsome (',' :: rest)
  have hstart : cut.dropWhile Text.isBlank = cut.trim ++ blanks := by
    have hparts := (List.takeWhile_append_dropWhile (p := Text.isBlank) (l := cut)).trans hcut
    exact List.append_cancel_left hparts
  have htrim : Text.trim (cut ++ ',' :: rest) = cut.trim ++ (blanks ++ ',' :: rest.trimEnd) := by
    rw [Text.trim, Text.trimStart, hdrop, hstart, Text.trimEnd_append_cons (by decide),
      List.append_assoc]
  have hbytes := congrArg Text.bytes hcut
  simp only [Text.bytes_append] at hbytes
  rw [directBranch, Branch.ofCut, htake, htrim, pathText, Path.ofSelector_comma hpath hblanks]
  show Except.error (SelectorError.invalid whole _ _) = _
  rw [show offset + cut.bytes = cut.trim.bytes + blanks.bytes +
    (offset + Text.bytes (cut.takeWhile Text.isBlank)) by omega]

/-- Behind a list that leaves something open, a comma is where the compilation fails. -/
theorem compile_open {a first : Text} (ha : (compile .empty false a .css).1 = .ok first)
    (hopen : Nesting.after {} a ≠ {}) (rest : Text) :
    (compile .empty false (a ++ ',' :: rest) .css).1 =
      .error (.invalid (a ++ ',' :: rest) a.bytes (.unexpected ',')) := by
  obtain ⟨before, last, cut, others, hcuts, hsplit, hlong⟩ := cutBranches_comma_inside hopen rest
  -- the branches before the last one compile, and the last one without what is behind it
  obtain ⟨texts, htexts, -⟩ := compile_eq_ok.1 ha
  rw [hcuts, List.map_append, List.mapM_append] at htexts
  obtain ⟨texts, htexts, hlast⟩ := Attempt.bind_eq_ok.1 htexts
  obtain ⟨_, hlast, -⟩ := Attempt.bind_eq_ok.1 hlast
  rw [List.map_singleton] at hlast
  obtain ⟨_, -, hlast, -, -⟩ := Attempt.mapM_cons_eq_ok.1 hlast
  generalize hwhole : a ++ ',' :: rest = whole
  rw [hwhole] at hlong
  have hbefore : (branchesFrom 0 before).mapM (directBranch whole .descendant) = .ok texts := by
    rw [mapM_directBranch_eq_ok, branchesFrom_text]
    exact htexts
  have hfails : (branches whole).mapM (directBranch whole .descendant) =
      .error (.invalid whole a.bytes (.unexpected ',')) := by
    rw [branches, hlong, branchesFrom_append, branchesFrom, Nat.zero_add,
      Attempt.mapM_append_cons_of_error hbefore (directBranch_comma hlast whole _ cut),
      ← Text.bytes_append, ← hsplit]
  rw [← (compileBranches_spec whole Cache.coherent_empty (branches whole)).1] at hfails
  show (compileBranches whole .empty (branches whole)).1.map (joinBranches false) = _
  rw [hfails]
  rfl

/-- Two lists that compile, with a comma between them: they compile to the union of what they compile
to, unless the first of them leaves a bracket or a quote mark open; then the comma is not expected. -/
theorem compile_comma {a b first second : Text}
    (ha : (compile .empty false a .css).1 = .ok first)
    (hb : (compile .empty false b .css).1 = .ok second) :
    (compile .empty false (a ++ ", ".toList ++ b) .css).1 =
      if Nesting.after {} a = {} then .ok (first ++ '|' :: second)
      else .error (.invalid (a ++ ", ".toList ++ b) a.bytes (.unexpected ',')) := by
  split
  case isTrue hclosed => exact compile_joined ha hb hclosed
  case isFalse hopen =>
    rw [List.append_assoc]
    exact compile_open ha hopen (' ' :: b)

/-- Commas and quote marks in brackets leave nothing open. -/
theorem compile_comma_quotes :
    let a := "ul > li[title='x,y'], em".toList
    let first := "//ul/li[@title='x,y']|//em".toList
    let b := "a[lang=\"'\"]".toList
    let second := "//a[@lang=\"'\"]".toList
    (compile .empty false a .css).1 = .ok first ∧ (compile .empty false b .css).1 = .ok second ∧
      (compile .empty false (a ++ ", ".toList ++ b) .css).1 = .ok (first ++ '|' :: second) := by
  intro a first b second
  have ha : (compile .empty false a .css).1 = .ok first := by
    decide +kernel
  have hb : (compile .empty false b .css).1 = .ok second := by
    decide +kernel
  have hclosed : Nesting.after {} a = {} := by decide
  refine ⟨ha, hb, ?_⟩
  rw [compile_comma ha hb, if_pos hclosed]

/-- A quote mark in an attribute value without quotes is left open for the scan, though the list
compiles. -/
theorem compile_comma_apostrophe :
    (compile .empty false "a[title=it's]".toList .css).1 = .ok "//a[@title=\"it's\"]".toList ∧
      (compile .empty false "b".toList .css).1 = .ok "//b".toList ∧
        (compile .empty false ("a[title=it's]".toList ++ ", ".toList ++ "b".toList) .css).1 =
          .error (.invalid "a[title=it's], b".toList 13 (.unexpected ',')) := by
  refine ⟨?_, ?_, ?_⟩ <;> decide +kernel

end Compiler
end TreeSelect
