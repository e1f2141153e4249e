import Mathlib.Algebra.GroupWithZero.Nat
import TreeSelect.Proofs.Compiler.Effect

/-!
# What the counters of a compiler add up to

A compiler that starts with nothing can be asked for expressions, selectors and others, over and over,
and some of them it refuses.  Two sums hold in every state that it reaches: its misses are its
entries and its refusals (`misses_compileBranches` says so of one list), and its hits and misses
together are the branches that it has looked up (`Effect.lookups`).

* `Request.examined`: how many branches one request looks up, told by the answer.
* `compile_counts`: what one request adds to both sums.
* `tally_answers`: all requests.
-/

namespace TreeSelect.Compiler

/-! ## Misses -/

/-- A branch that is compiled anew is one entry more. -/
theorem size_compiled {cache : Cache} {branch : Text} (h : cache.get? branch = none) (text : Text) :
    (compiled cache branch text).size = cache.size + 1 :=
  OrderedMap.size_insert h

/-- Each miss adds an entry, but for the one that ends the compilation. -/
theorem misses_compileBranches (whole : Text) (cache : Cache) (list : List Branch) :
    (compileBranches whole cache list).2.misses + cache.size =
      cache.misses + (compileBranches whole cache list).2.size +
        if !(compileBranches whole cache list).1.isOk then 1 else 0 := by
  induction list generalizing cache with
  | nil => rfl
  | cons branch list ih =>
    obtain ⟨text, hget, hrun⟩ | ⟨text, hget, hpath, hrun⟩ | ⟨error, hget, hpath, hrun⟩ :=
      compileBranches_cons whole cache branch list
    · simp only [hrun, passing, Attempt.isOk_map]
      exact ih { cache with hits := cache.hits + 1 }
    · have hlater := ih (compiled cache branch.text text)
      have hmisses : (compiled cache branch.text text).misses = cache.misses + 1 := rfl
      rw [size_compiled hget, hmisses] at hlater
      simp only [hrun, passing, Attempt.isOk_map]
      omega
    · rw [hrun]
      exact Nat.add_right_comm cache.misses 1 cache.size

/-! ## Lookups -/

/-- A run over branches looks up those before the first that ends the compilation, and that one. -/
theorem Effect.lookups {before after : Cache} {texts : List Text} {success : Bool}
    (h : Effect before after texts success) :
    after.hits + after.misses =
      before.hits + before.misses + (texts.take (reach before texts + 1)).length := by
  have hlength := List.length_eq_countP_add_countP (isHit before texts) (l := lookedUp before texts)
  simp only [Bool.not_eq_true, Bool.decide_eq_false] at hlength
  rw [lookedUp, List.length_range] at hlength
  rw [h.hits, h.misses, lookedUp]
  omega

/-- Whether a branch does not compile. -/
def refuses (branch : Text) : Bool := !(pathText branch .descendant).isOk

/-- A coherent cache holds no branch that does not compile. -/
theorem reach_of_coherent {cache : Cache} (hcache : cache.Coherent) (texts : List Text) :
    reach cache texts = texts.findIdx refuses := by
  have hfails : fails cache = refuses := by
    funext text
    rw [fails, refuses]
    cases hget : cache.get? text with
    | none => rfl
    | some result =>
      rw [hcache.pathText_of_get? hget]
      rfl
  rw [reach, hfails]

/-- How many branches a request looks up: all of them if it is answered, and else those up to the
first that does not compile, that one included.  For an expression of the other language it looks up
nothing. -/
def Request.examined (request : Request) (answer : Except SelectorError Text) : Nat :=
  match request.type with
  | .xpath => 0
  | .css =>
    let texts := (branches request.expression).map Branch.text
    if answer.isOk then texts.length else texts.findIdx refuses + 1

/-! ## Requests -/

/-- What a request adds to the counters of a coherent cache.  A refusal is a miss without an entry. -/
theorem compile_counts {cache after : Cache} (hcache : cache.Coherent) {request : Request}
    {answer : Except SelectorError Text}
    (h : compile cache request.relative request.expression request.type = (answer, after)) :
    after.misses + cache.size = cache.misses + after.size + (if !answer.isOk then 1 else 0) ∧
      after.hits + after.misses = cache.hits + cache.misses + request.examined answer := by
  obtain ⟨relative, expression, type⟩ := request
  cases type with
  | xpath =>
    cases h
    exact ⟨rfl, rfl⟩
  | css =>
    have hmisses := misses_compileBranches expression cache (branches expression)
    have heffect := effect_compileBranches expression cache (branches expression)
    have hlookups := heffect.lookups
    have hsuccess := heffect.success_iff
    cases h
    rw [Attempt.isOk_map, Request.examined, Attempt.isOk_map]
    refine ⟨hmisses, hlookups.trans ?_⟩
    rw [reach_of_coherent hcache] at hsuccess ⊢
    rw [List.length_take]
    cases hok : (compileBranches expression cache (branches expression)).1.isOk with
    | true =>
      rw [hsuccess.1 hok]
      simp
    | false =>
      have hne := mt hsuccess.2 (by simp [hok])
      have hle : ((branches expression).map Branch.text).findIdx refuses ≤
          ((branches expression).map Branch.text).length := List.findIdx_le_length
      simp only [Bool.false_eq_true, if_false]
      omega

/-- What requests add to the counters of a coherent cache. -/
theorem answers_counts {cache : Cache} (hcache : cache.Coherent) (requests : List Request) :
    (answers cache requests).2.misses + cache.size =
        cache.misses + (answers cache requests).2.size +
          (answers cache requests).1.countP (fun answer => !answer.isOk) ∧
      (answers cache requests).2.hits + (answers cache requests).2.misses =
        cache.hits + cache.misses +
          (List.zipWith Request.examined requests (answers cache requests).1).sum := by
  induction requests generalizing cache with
  | nil => exact ⟨rfl, rfl⟩
  | cons request requests ih =>
    have hcoherent := (compile_spec hcache request).2
    rw [answers]
    cases hcompile : compile cache request.relative request.expression request.type with
    | mk answer between =>
      rw [hcompile] at hcoherent
      have hbetween : between.Coherent := hcoherent
      obtain ⟨hmisses, hlookups⟩ := compile_counts hcache hcompile
      obtain ⟨hlaterMisses, hlaterLookups⟩ := ih hbetween
      simp only [List.countP_cons, List.zipWith_cons_cons, List.sum_cons]
      constructor <;> omega

/-- In every state that a compiler reaches from an empty cache by answering requests, or refusing
them, its misses are its entries and the refusals, and its hits and misses together are the branches
that the requests for selectors have looked up. -/
theorem tally_answers (requests : List Request) :
    let (results, cache) := answers .empty requests
    cache.misses = cache.size + results.countP (fun answer => !answer.isOk) ∧
      cache.hits + cache.misses = (List.zipWith Request.examined requests results).sum := by
  obtain ⟨hmisses, hlookups⟩ := answers_counts Cache.coherent_empty requests
  have hsize : Cache.size .empty = 0 := rfl
  have hcounters : Cache.hits .empty = 0 ∧ Cache.misses .empty = 0 := ⟨rfl, rfl⟩
  rw [hsize, hcounters.2] at hmisses
  rw [hcounters.1, hcounters.2] at hlookups
  constructor
  · omega
  · omega

end TreeSelect.Compiler
