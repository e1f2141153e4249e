import TreeSelect.Compiler.Basic
import TreeSelect.Proofs.OrderedMap
import TreeSelect.Proofs.Path.Steps

/-!
# The cache does not show in the answers

A compiler is asked for one expression after another and keeps its cache in between, also when it
fails.  This module compares its answers with `Request.direct`, which compiles every branch anew.

* `Cache.Coherent` is the invariant: each entry is the text that its key compiles to from the root.
  Requests from the context node share these entries, since their texts differ by a point alone.
* `compileBranch_spec` and `compileBranches_spec` say what a step does to a coherent cache.
* `answers_eq_direct` is the induction over the requests.
-/

namespace TreeSelect

namespace Cache

/-! ## The invariant -/

/-- Each entry is the text that its key compiles to. -/
def Coherent (cache : Cache) : Prop :=
  ∀ entry ∈ cache.entries.entries, pathText entry.1 .descendant = .ok entry.2

theorem coherent_empty : Coherent .empty := by
  intro entry hentry
  cases hentry

/-- What a coherent cache holds for a branch is what the branch compiles to. -/
theorem Coherent.pathText_of_get? {cache : Cache} (hcache : cache.Coherent) {branch text : Text}
    (h : cache.get? branch = some text) : pathText branch .descendant = .ok text :=
  hcache (branch, text) (OrderedMap.get?_eq_some_iff.1 h)

/-- Looking up counts, and leaves the entries alone. -/
theorem entries_lookup (cache : Cache) (branch : Text) :
    (cache.lookup branch).2.entries = cache.entries := by
  unfold lookup
  split <;> rfl

theorem lookup_fst (cache : Cache) (branch : Text) :
    (cache.lookup branch).1 = cache.get? branch := by
  unfold lookup
  split
  case h_1 text h => exact h.symm
  case h_2 h => exact h.symm

theorem Coherent.lookup {cache : Cache} (hcache : cache.Coherent) (branch : Text) :
    (cache.lookup branch).2.Coherent := by
  unfold Coherent
  rw [entries_lookup]
  exact hcache

/-- The text of a branch may be inserted under that branch. -/
theorem Coherent.insert {cache : Cache} (hcache : cache.Coherent) {branch text : Text}
    (h : pathText branch .descendant = .ok text) : (cache.insert branch text).Coherent := by
  intro entry hentry
  rcases OrderedMap.mem_entries_insert.1 hentry with rfl | ⟨hold, -⟩
  · exact h
  · exact hcache entry hold

end Cache

namespace Compiler

/-! ## Compiling without a cache -/

/-- What a compiler is asked for. -/
structure Request where
  relative : Bool
  expression : Text
  type : ExpressionType

/-- What a branch of the list `whole` compiles to.  An error is told as one of the whole list. -/
def directBranch (whole : Text) (axis : Path.Axis) (branch : Branch) : Except SelectorError Text :=
  (pathText branch.text axis).mapError (·.within whole branch.offset)

/-- The axis on which the branches of a request start. -/
def Request.axis (request : Request) : Path.Axis :=
  if request.relative then .descendantFromContext else .descendant

/-- The answer to a request when nothing is remembered: an XPath expression is its own answer, and
the texts of the branches of a selector are joined.  The first branch that fails decides the error. -/
def Request.direct (request : Request) : Except SelectorError Text :=
  match request.type with
  | .xpath => .ok request.expression
  | .css =>
    ((branches request.expression).mapM (directBranch request.expression request.axis)).map
      ['|'].intercalate

/-- The answers to requests in their order, and the cache after the last of them. -/
def answers : Cache → List Request → List (Except SelectorError Text) × Cache
  | cache, [] => ([], cache)
  | cache, request :: requests =>
    let (answer, cache) := compile cache request.relative request.expression request.type
    let (others, cache) := answers cache requests
    (answer :: others, cache)

/-! ## One step -/

/-- A branch gets the answer that it gets without a cache, and the cache stays coherent. -/
theorem compileBranch_spec {cache : Cache} (hcache : cache.Coherent) (branch : Text) :
    (compileBranch cache branch).1 = pathText branch .descendant ∧
      (compileBranch cache branch).2.Coherent := by
  have hfst := Cache.lookup_fst cache branch
  have hsnd := hcache.lookup branch
  unfold compileBranch
  split
  case h_1 text cache' hlookup =>
    rw [hlookup] at hfst hsnd
    exact ⟨(hcache.pathText_of_get? hfst.symm).symm, hsnd⟩
  case h_2 cache' hlookup =>
    rw [hlookup] at hsnd
    split
    case h_1 text htext => exact ⟨htext.symm, hsnd.insert htext⟩
    case h_2 error herror => exact ⟨herror.symm, hsnd⟩

/-- Branches get the answers that they get without a cache, up to the first that fails, and the
cache stays coherent in both cases. -/
theorem compileBranches_spec (whole : Text) {cache : Cache} (hcache : cache.Coherent)
    (list : List Branch) :
    (compileBranches whole cache list).1 = list.mapM (directBranch whole .descendant) ∧
      (compileBranches whole cache list).2.Coherent := by
  induction list generalizing cache with
  | nil => exact ⟨rfl, hcache⟩
  | cons branch rest ih =>
    obtain ⟨hanswer, hnext⟩ := compileBranch_spec hcache branch.text
    rw [compileBranches, List.mapM_cons]
    split
    case h_1 error cache' hbranch =>
      rw [hbranch] at hanswer hnext
      refine ⟨?_, hnext⟩
      simp only [directBranch, ← hanswer]
      rfl
    case h_2 text cache' hbranch =>
      rw [hbranch] at hanswer hnext
      obtain ⟨hrest, hlast⟩ := ih hnext
      refine ⟨?_, hlast⟩
      simp only [directBranch, ← hanswer, hrest]
      cases rest.mapM (directBranch whole .descendant) <;> rfl

/-- From the context node the branches compile to the texts from the root behind a point, and the
same branch fails. -/
theorem mapM_directBranch_descendantFromContext (whole : Text) (list : List Branch) :
    list.mapM (directBranch whole .descendantFromContext) =
      (list.mapM (directBranch whole .descendant)).map (List.map ('.' :: ·)) := by
  induction list with
  | nil => rfl
  | cons branch rest ih =>
    rw [List.mapM_cons, List.mapM_cons, ih]
    simp only [directBranch, pathText_descendantFromContext]
    cases pathText branch.text .descendant with
    | error error => rfl
    | ok text => cases rest.mapM (directBranch whole .descendant) <;> rfl

/-- With a coherent cache a request gets its direct answer, and the cache stays coherent. -/
theorem compile_spec {cache : Cache} (hcache : cache.Coherent) (request : Request) :
    (compile cache request.relative request.expression request.type).1 = request.direct ∧
      (compile cache request.relative request.expression request.type).2.Coherent := by
  obtain ⟨relative, expression, type⟩ := request
  cases type with
  | xpath => exact ⟨rfl, hcache⟩
  | css =>
    obtain ⟨hanswer, hnext⟩ := compileBranches_spec expression hcache (branches expression)
    refine ⟨?_, hnext⟩
    simp only [compile, Request.direct, Request.axis, hanswer]
    cases relative with
    | false => rfl
    | true =>
      simp only [if_true, mapM_directBranch_descendantFromContext]
      cases (branches expression).mapM (directBranch expression .descendant) <;> rfl

/-! ## Any number of requests -/

/-- Whatever has been asked before, and whether it failed or not, a request gets its direct answer,
and the cache stays coherent. -/
theorem answers_spec {cache : Cache} (hcache : cache.Coherent) (requests : List Request) :
    (answers cache requests).1 = requests.map Request.direct ∧
      (answers cache requests).2.Coherent := by
  induction requests generalizing cache with
  | nil => exact ⟨rfl, hcache⟩
  | cons request requests ih =>
    obtain ⟨hanswer, hnext⟩ := compile_spec hcache request
    obtain ⟨hothers, hlast⟩ := ih hnext
    refine ⟨?_, hlast⟩
    rw [List.map_cons, ← hanswer, ← hothers]
    rfl

/-- A compiler that starts with an empty cache answers all requests as if it had none.  In each state
that it reaches the entries are what their keys compile to, and an XPath expression is returned as
it is and changes nothing. -/
theorem answers_eq_direct (requests : List Request) :
    (answers .empty requests).1 = requests.map Request.direct ∧
      (∀ entry ∈ (answers .empty requests).2.entries.entries,
        pathText entry.1 .descendant = .ok entry.2) ∧
      ∀ relative expression,
        compile (answers .empty requests).2 relative expression .xpath =
          (.ok expression, (answers .empty requests).2) := by
  obtain ⟨hanswers, hcoherent⟩ := answers_spec Cache.coherent_empty requests
  exact ⟨hanswers, hcoherent, fun _ _ => rfl⟩

end Compiler
end TreeSelect
