import TreeSelect.Proofs.Compiler.Effect
import TreeSelect.Proofs.Path.Faults
import TreeSelect.Proofs.Selector.Splitting

/-!
# Places of faults in a selector list

A branch reports its fault at a place of its own text, and the list reports it further on, by the
offset of the branch.

* `compileBranches_eq_error`: which branch that is, and what becomes of its error.
* `compile_fault_fits`: the place lies in the branch, between characters of the list, and the fault
  describes what stands there.
-/

namespace TreeSelect.Compiler

/-- A compilation fails with the error of the first branch that ends it, seen from the whole list. -/
theorem compileBranches_eq_error {whole : Text} {cache : Cache} {list : List Branch}
    {error : SelectorError} (h : (compileBranches whole cache list).1 = .error error) :
    ∃ branch inner, list.find? (fun branch => fails cache branch.text) = some branch ∧
      pathText branch.text .descendant = .error inner ∧
        error = inner.within whole branch.offset := by
  induction list generalizing cache with
  | nil => cases h
  | cons branch list ih =>
    -- a branch that is passed leaves a cache with which the same branches fail
    have hpassed : ∀ {between : Cache}, fails cache branch.text = false →
        fails between = fails cache → (compileBranches whole between list).1 = .error error →
          ∃ other inner, (branch :: list).find? (fun other => fails cache other.text) = some other ∧
            pathText other.text .descendant = .error inner ∧
              error = inner.within whole other.offset := by
      intro between hpasses hsame hlater
      obtain ⟨other, inner, hfirst, hinner, herror⟩ := ih hlater
      rw [hsame] at hfirst
      refine ⟨other, inner, ?_, hinner, herror⟩
      rw [List.find?_cons, hpasses]
      exact hfirst
    obtain ⟨text, hget, hrun⟩ | ⟨text, hget, hpath, hrun⟩ | ⟨inner, hget, hpath, hrun⟩ :=
      compileBranches_cons whole cache branch list
    · rw [hrun] at h
      have hsame : fails { cache with hits := cache.hits + 1 } = fails cache := rfl
      exact hpassed (by simp [fails, hget]) hsame (Attempt.map_eq_error.1 h)
    · rw [hrun] at h
      exact hpassed (by simp [fails, hpath, Except.isOk, Except.toBool])
        (funext (fails_compiled hpath)) (Attempt.map_eq_error.1 h)
    · rw [hrun] at h
      cases h
      refine ⟨branch, inner, ?_, hpath, rfl⟩
      rw [List.find?_cons_of_pos]
      simp [fails, hget, hpath, Except.isOk, Except.toBool]

/-- An error that names a place is about the whole list.  The place lies in the first branch that is
neither in the cache nor compiles, between two parts of its text; the fault describes what stands
there, and its wording is true of that. -/
theorem compile_fault_fits {cache : Cache} {relative : Bool} {expression selector : Text}
    {offset : Nat} {fault : Fault}
    (h : (compile cache relative expression .css).1 = .error (.invalid selector offset fault)) :
    selector = expression ∧ ∃ branch front before behind back,
      (branches expression).find? (fun branch => fails cache branch.text) = some branch ∧
        branch.text = before ++ behind ∧ expression = front ++ (before ++ behind) ++ back ∧
          front.bytes = branch.offset ∧ Text.bytes (front ++ before) = offset ∧
            branch.offset ≤ offset ∧ offset ≤ branch.offset + branch.text.bytes ∧
              fault.FitsAt before behind ∧ Fault.ReasonFits before behind fault.reason := by
  obtain ⟨branch, inner, hfirst, hinner, herror⟩ :=
    compileBranches_eq_error (Attempt.map_eq_error.1 h)
  have hstands : branch.StandsIn ([] ++ [','].intercalate (cutBranches {} expression)) :=
    standsIn_branchesFrom (List.mem_of_find?_eq_some hfirst)
  rw [List.nil_append, intercalate_cutBranches] at hstands
  obtain ⟨front, back, hexpression, hfront⟩ := hstands
  have hfits := pathText_fits hinner
  cases inner with
  | unknownPseudoClass name => cases herror
  | invalidArgument fault => cases herror
  | invalid whole place fault =>
    cases herror
    obtain ⟨-, before, behind, htext, hplace, hfault⟩ := hfits
    have hbytes : branch.text.bytes = before.bytes + behind.bytes := by
      rw [htext, Text.bytes_append]
    refine ⟨rfl, branch, front, before, behind, back, hfirst, htext, htext ▸ hexpression, hfront, ?_,
      ?_, ?_, hfault, hfault.reason_fits⟩
    · rw [Text.bytes_append, hfront, hplace, Nat.add_comm]
    · omega
    · omega

/-- A branch that only the cache answers, one that compiles, and behind a wide blank one with a
condition that names no attribute. -/
theorem compile_fault_fits_groups :
    let list := "^, é > p,\u2003ß[ç='☃'][?] > i , b".toList
    let cache := Cache.empty.insert "^".toList "//x".toList
    let failing : Branch := ⟨13, "ß[ç='☃'][?] > i".toList⟩
    (compile cache true list .css).1 = .error (.invalid list 15 (.attribute "?".toList)) ∧
      (branches list).find? (fun branch => fails cache branch.text) = some failing ∧
        ∃ before behind, failing.text = before ++ behind ∧
          failing.offset + before.bytes = 15 ∧ behind.head? = some '[' := by
  intro list cache failing
  have hfails : (compile cache true list .css).1 =
      .error (.invalid list 15 (.attribute "?".toList)) := by decide +kernel
  have hfailing : (branches list).find? (fun branch => fails cache branch.text) = some failing := by
    decide +kernel
  obtain ⟨-, branch, front, before, behind, back, hfirst, htext, -, hfront, hoffset, -, -, -,
    hreason⟩ := compile_fault_fits hfails
  obtain rfl : failing = branch := Option.some.inj (hfailing.symm.trans hfirst)
  rw [Text.bytes_append, hfront] at hoffset
  have hworded : "unsupported attribute expression".toList <+:
      (Fault.attribute "?".toList).reason := by decide +kernel
  exact ⟨hfails, hfailing, before, behind, htext, hoffset, hreason.unsupported hworded⟩

end TreeSelect.Compiler
