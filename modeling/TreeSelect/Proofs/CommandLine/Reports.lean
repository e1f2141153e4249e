import Mathlib.Data.Finset.Card
import Mathlib.Data.List.Forall2
import TreeSelect.CommandLine.Compile
import TreeSelect.Proofs.Compiler.Accounting

/-!
# Reports on several expressions

The command compiles its expressions one after another with one cache.  Its report is compared here
with compilers that know nothing of each other: `alone` is what one of these gives.

* `compileEach_cons_eq_ok` and `compileEach_cons_eq_error` say what one expression adds to a run.
* `Remembered` relates the caches before and after some branches, all of which compile; it holds of
  one expression and is transitive, so it holds of a run (`remembered_compileEach`).
* `compileAll_alone`: results, counters and errors of the whole report.
-/

namespace TreeSelect.CommandLine

open Compiler

variable {type : ExpressionType} {relative : Bool} {cache after : Cache} {error : SelectorError}

/-- What a compiler of its own gives for an expression. -/
def alone (type : ExpressionType) (relative : Bool) (expression : Text) :
    Except SelectorError Text :=
  (compile .empty relative expression type).1

/-- A coherent cache does not show in the answer. -/
theorem compile_fst_eq_alone (hcache : cache.Coherent) (expression : Text) :
    (compile cache relative expression type).1 = alone type relative expression := by
  have hdirect := (compile_spec hcache ⟨relative, expression, type⟩).1
  have halone := (compile_spec Cache.coherent_empty ⟨relative, expression, type⟩).1
  exact hdirect.trans halone.symm

/-! ## One expression of a run -/

theorem compileEach_cons_eq_ok {expression : Text} {expressions : List Text}
    {results : List CompiledExpression} :
    compileEach cache type relative (expression :: expressions) = .ok (results, after) ↔
      ∃ xpath between others, compile cache relative expression type = (.ok xpath, between) ∧
        compileEach between type relative expressions = .ok (others, after) ∧
        results = ⟨expression, xpath⟩ :: others := by
  rw [compileEach]
  cases hcompile : compile cache relative expression type with
  | mk answer between =>
    cases answer with
    | error error => simp
    | ok xpath =>
      simp only [Attempt.bind_eq_ok]
      constructor
      · rintro ⟨⟨others, last⟩, hothers, hresult⟩
        cases hresult
        exact ⟨xpath, between, others, rfl, hothers, rfl⟩
      · rintro ⟨_, _, others, hfirst, hothers, rfl⟩
        cases hfirst
        exact ⟨(others, after), hothers, rfl⟩

theorem compileEach_cons_eq_error {expression : Text} {expressions : List Text} :
    compileEach cache type relative (expression :: expressions) = .error error ↔
      (compile cache relative expression type).1 = .error error ∨
        ∃ xpath between, compile cache relative expression type = (.ok xpath, between) ∧
          compileEach between type relative expressions = .error error := by
  rw [compileEach]
  cases hcompile : compile cache relative expression type with
  | mk answer between =>
    cases answer with
    | error error => simp
    | ok xpath =>
      simp only [Attempt.bind_eq_error]
      constructor
      · rintro (hothers | ⟨others, -, hresult⟩)
        · exact .inr ⟨xpath, between, rfl, hothers⟩
        · cases hresult
      · rintro (hfirst | ⟨_, _, hfirst, hothers⟩)
        · cases hfirst
        · cases hfirst
          exact .inl hothers

/-- What an expression compiles to with a coherent cache, and that the cache stays coherent. -/
theorem alone_of_compile (hcache : cache.Coherent) {expression xpath : Text}
    (h : compile cache relative expression type = (.ok xpath, after)) :
    alone type relative expression = .ok xpath ∧ after.Coherent := by
  have hanswer : (compile cache relative expression type).1 = alone type relative expression :=
    compile_fst_eq_alone hcache expression
  have hcoherent := (compile_spec hcache ⟨relative, expression, type⟩).2
  simp only [h] at hanswer hcoherent
  exact ⟨hanswer.symm, hcoherent⟩

/-! ## Results and errors -/

/-- Each result of a run is what its expression gives alone. -/
theorem results_compileEach (hcache : cache.Coherent) {expressions : List Text}
    {results : List CompiledExpression}
    (h : compileEach cache type relative expressions = .ok (results, after)) :
    List.Forall₂ (fun expression result => result.expression = expression ∧
      alone type relative expression = .ok result.xpath) expressions results := by
  induction expressions generalizing cache results with
  | nil =>
    cases h
    exact .nil
  | cons expression expressions ih =>
    obtain ⟨xpath, between, others, hfirst, hothers, rfl⟩ := compileEach_cons_eq_ok.1 h
    obtain ⟨halone, hbetween⟩ := alone_of_compile hcache hfirst
    exact .cons ⟨rfl, halone⟩ (ih hbetween hothers)

/-- A run ends with the error of the first expression that fails alone, if there is one. -/
theorem compileEach_eq_error_iff (hcache : cache.Coherent) (expressions : List Text) :
    compileEach cache type relative expressions = .error error ↔
      ∃ before expression later, expressions = before ++ expression :: later ∧
        (∀ other ∈ before, ∃ xpath, alone type relative other = .ok xpath) ∧
        alone type relative expression = .error error := by
  induction expressions generalizing cache with
  | nil => simp [compileEach]
  | cons first expressions ih =>
    rw [compileEach_cons_eq_error, compile_fst_eq_alone hcache]
    constructor
    · rintro (hfirst | ⟨xpath, between, hfirst, hothers⟩)
      · exact ⟨[], first, expressions, rfl, by simp, hfirst⟩
      · obtain ⟨halone, hbetween⟩ := alone_of_compile hcache hfirst
        obtain ⟨before, expression, later, rfl, hbefore, hexpression⟩ := (ih hbetween).1 hothers
        exact ⟨first :: before, expression, later, rfl,
          List.forall_mem_cons.2 ⟨⟨xpath, halone⟩, hbefore⟩, hexpression⟩
    · rintro ⟨before, expression, later, hlist, hbefore, hexpression⟩
      rcases List.cons_eq_append_iff.1 hlist with ⟨rfl, hcons⟩ | ⟨before, rfl, hrest⟩
      · obtain ⟨rfl, rfl⟩ := List.cons.inj hcons
        exact .inl hexpression
      · obtain ⟨⟨xpath, halone⟩, hbefore⟩ := List.forall_mem_cons.1 hbefore
        rw [← compile_fst_eq_alone hcache] at halone
        cases hcompile : compile cache relative first type with
        | mk answer between =>
          rw [hcompile] at halone
          obtain rfl : answer = .ok xpath := halone
          obtain ⟨-, hbetween⟩ := alone_of_compile hcache hcompile
          exact .inr ⟨xpath, between, rfl,
            (ih hbetween).2 ⟨before, expression, later, hrest, hbefore, hexpression⟩⟩

/-! ## Counters -/

/-- The branches of expressions, one expression after another. -/
def branchTexts (expressions : List Text) : List Text :=
  expressions.flatMap fun expression => (branches expression).map Branch.text

/-- What the cache is after branches that all compile: it remembers them, and each lookup was a hit
or added an entry. -/
structure Remembered (before after : Cache) (texts : List Text) : Prop where
  keys : ∀ key, key ∈ after.entries.keys ↔ key ∈ before.entries.keys ∨ key ∈ texts
  misses : after.misses + before.size = before.misses + after.size
  lookups : after.hits + after.misses = before.hits + before.misses + texts.length

theorem Remembered.trans {before between after : Cache} {texts others : List Text}
    (h : Remembered before between texts) (hlater : Remembered between after others) :
    Remembered before after (texts ++ others) := by
  constructor
  · intro key
    rw [hlater.keys, h.keys, List.mem_append, or_assoc]
  · have hmisses := h.misses
    have hlaterMisses := hlater.misses
    omega
  · rw [hlater.lookups, h.lookups, List.length_append, Nat.add_assoc]

/-- From an empty cache, each branch that occurs is one miss, however often it occurs. -/
theorem Remembered.of_empty {texts : List Text} (h : Remembered .empty after texts) :
    after.misses = texts.toFinset.card ∧ after.hits + after.misses = texts.length := by
  have hkeys : after.entries.keys.toFinset = texts.toFinset := by
    ext key
    rw [List.mem_toFinset, List.mem_toFinset, h.keys]
    exact or_iff_right List.not_mem_nil
  have hsize : after.entries.keys.length = after.size := List.length_map _
  have hmisses : after.misses + 0 = 0 + after.size := h.misses
  have hlookups : after.hits + after.misses = 0 + 0 + texts.length := h.lookups
  have hnodup : after.entries.keys.Nodup := after.entries.nodup_keys
  rw [← hkeys, List.toFinset_card_of_nodup hnodup]
  omega

/-- One expression. -/
theorem remembered_compile (hcache : cache.Coherent) {expression xpath : Text}
    (h : compile cache relative expression .css = (.ok xpath, after)) :
    Remembered cache after ((branches expression).map Branch.text) := by
  obtain ⟨hmisses, hlookups⟩ :=
    @compile_counts cache after hcache ⟨relative, expression, .css⟩ (.ok xpath) h
  have heffect := effect_compileBranches expression cache (branches expression)
  have hok := Attempt.isOk_map (compileBranches expression cache (branches expression)).1
    (joinBranches relative)
  obtain ⟨hanswer, hafter⟩ := Prod.mk.inj h
  rw [hanswer] at hok
  rw [hafter, ← hok] at heffect
  exact ⟨heffect.mem_keys, hmisses, hlookups⟩

/-- A run over any number of expressions. -/
theorem remembered_compileEach (hcache : cache.Coherent) {expressions : List Text}
    {results : List CompiledExpression}
    (h : compileEach cache .css relative expressions = .ok (results, after)) :
    Remembered cache after (branchTexts expressions) := by
  induction expressions generalizing cache results with
  | nil =>
    cases h
    exact ⟨fun key => (or_iff_left List.not_mem_nil).symm, rfl, rfl⟩
  | cons expression expressions ih =>
    obtain ⟨xpath, between, others, hfirst, hothers, -⟩ := compileEach_cons_eq_ok.1 h
    have hbetween := (alone_of_compile hcache hfirst).2
    rw [branchTexts, List.flatMap_cons]
    exact (remembered_compile hcache hfirst).trans (ih hbetween hothers)

/-- Expressions of the other language leave the cache alone. -/
theorem compileEach_xpath {expressions : List Text} {results : List CompiledExpression}
    (h : compileEach cache .xpath relative expressions = .ok (results, after)) : after = cache := by
  induction expressions generalizing results with
  | nil =>
    cases h
    rfl
  | cons expression expressions ih =>
    obtain ⟨xpath, between, others, hfirst, hothers, -⟩ := compileEach_cons_eq_ok.1 h
    cases hfirst
    exact ih hothers

/-! ## The report -/

theorem compileAll_eq_ok {expressions : List Text} {report : CompileReport}
    (h : compileAll expressions type relative = .ok report) :
    ∃ after, compileEach .empty type relative expressions = .ok (report.results, after) ∧
      report.hits = after.hits ∧ report.misses = after.misses := by
  obtain ⟨⟨results, after⟩, heach, hpure⟩ := Attempt.bind_eq_ok.1 h
  cases hpure
  exact ⟨after, heach, rfl, rfl⟩

theorem compileAll_eq_error_iff (expressions : List Text) :
    compileAll expressions type relative = .error error ↔
      ∃ before expression later, expressions = before ++ expression :: later ∧
        (∀ other ∈ before, ∃ xpath, alone type relative other = .ok xpath) ∧
        alone type relative expression = .error error := by
  rw [← compileEach_eq_error_iff Cache.coherent_empty, compileAll, Attempt.bind_eq_error]
  exact or_iff_left (by rintro ⟨_, -, hpure⟩; cases hpure)

/-- The command succeeds exactly if each expression compiles on a compiler of its own.  The report
then has one result for each expression, in their order, with the text that this compiler gives; for
selectors the misses are the different branches of all expressions, and the hits are their
repetitions, and for XPath nothing is looked up.  Otherwise the command fails as the first expression
does that fails. -/
theorem compileAll_alone (expressions : List Text) (type : ExpressionType) (relative : Bool) :
    ((∃ report, compileAll expressions type relative = .ok report) ↔
      ∀ expression ∈ expressions, ∃ xpath, alone type relative expression = .ok xpath) ∧
    (∀ report, compileAll expressions type relative = .ok report →
      List.Forall₂ (fun expression result => result.expression = expression ∧
        alone type relative expression = .ok result.xpath) expressions report.results ∧
      match type with
      | .css => report.misses = (branchTexts expressions).toFinset.card ∧
          report.hits + report.misses = (branchTexts expressions).length
      | .xpath => report.hits = 0 ∧ report.misses = 0) ∧
    ∀ error, compileAll expressions type relative = .error error ↔
      ∃ before expression later, expressions = before ++ expression :: later ∧
        (∀ other ∈ before, ∃ xpath, alone type relative other = .ok xpath) ∧
        alone type relative expression = .error error := by
  refine ⟨⟨?_, ?_⟩, ?_, fun error => compileAll_eq_error_iff expressions⟩
  · rintro ⟨report, hreport⟩ expression hexpression
    obtain ⟨after, heach, -⟩ := compileAll_eq_ok hreport
    have hresults := results_compileEach Cache.coherent_empty heach
    obtain ⟨place, hplace, rfl⟩ := List.mem_iff_getElem.1 hexpression
    exact ⟨_, (hresults.get hplace (hresults.length_eq ▸ hplace)).2⟩
  · intro hall
    cases hcompile : compileAll expressions type relative with
    | ok report => exact ⟨report, rfl⟩
    | error error =>
      obtain ⟨before, expression, later, rfl, -, hfails⟩ :=
        (compileAll_eq_error_iff expressions).1 hcompile
      obtain ⟨xpath, halone⟩ := hall expression (by simp)
      rw [hfails] at halone
      cases halone
  · intro report hreport
    obtain ⟨after, heach, hhits, hmisses⟩ := compileAll_eq_ok hreport
    refine ⟨results_compileEach Cache.coherent_empty heach, ?_⟩
    rw [hhits, hmisses]
    cases type with
    | css => exact (remembered_compileEach Cache.coherent_empty heach).of_empty
    | xpath =>
      rw [compileEach_xpath heach]
      exact ⟨rfl, rfl⟩

/-- A branch that occurs in two expressions is a miss and then a hit. -/
theorem compileAll_alone_repeated :
    ∃ report, compileAll ["li".toList, "li, a".toList] .css false = .ok report ∧
      report.misses = 2 ∧ report.hits = 1 := by
  have hbranches : branchTexts ["li".toList, "li, a".toList] =
      ["li".toList, "li".toList, "a".toList] := by decide
  have hspec := compileAll_alone ["li".toList, "li, a".toList] .css false
  obtain ⟨report, hreport⟩ := hspec.1.2 (List.forall_mem_cons.2
    ⟨⟨"//li".toList, by decide +kernel⟩,
      List.forall_mem_singleton.2 ⟨"//li|//a".toList, by decide +kernel⟩⟩)
  obtain ⟨-, hmisses, hlookups⟩ := hspec.2.1 report hreport
  rw [hbranches] at hmisses hlookups
  have hdistinct : ["li".toList, "li".toList, "a".toList].toFinset.card = 2 := by decide
  have htotal : ["li".toList, "li".toList, "a".toList].length = 3 := rfl
  exact ⟨report, hreport, by omega, by omega⟩

end TreeSelect.CommandLine
