import TreeSelect.Proofs.Compiler.Effect

/-!
# Caches that are stored and restored

A cache is stored as a JSON object of its entries, and a compiler goes on with what such an object
holds.  Then the entries stand in another order and the counters start again, and nothing of that
shows in an answer.

* `ofJson_toJson` is the round trip, and `ofJson_eq_error` says what is refused and why.
* `Alike` relates two caches with the same entries, of which one has counted more lookups.  One branch
  keeps it (`Alike.compileBranch`), and so do lists and runs.
* `restore_stored`: both together.
-/

namespace TreeSelect

/-! ## Stored caches -/

/-- Whether a JSON value is an object whose values are strings. -/
def Json.StoresTexts (stored : Json) : Prop :=
  ∃ members, stored = .object members ∧ ∀ member ∈ members, ∃ text, member.2 = .string text

/-- What a fault says of a JSON value that stores no cache: that it is no object, or that one of its
members is no string. -/
def ArgumentFault.Refuses (stored : Json) : ArgumentFault → Prop
  | .expressionType _ => False
  | .cacheKind found => (∀ members, stored ≠ .object members) ∧ found = stored.kind
  | .entryKind key found => ∃ members value, stored = .object members ∧ (key, value) ∈ members ∧
      (∀ text, value ≠ .string text) ∧ found = value.kind

namespace Cache

/-- The entries of stored texts are read in the order of their keys. -/
theorem entriesOfMembers_texts (entries : List (Text × Text)) :
    entriesOfMembers (entries.map fun entry => (entry.1, .string entry.2)) =
      .ok (.ofList (entries.mergeSort fun a b => keyLE a.1 b.1)) := by
  have hsorted := List.map_mergeSort (l := entries) (r := fun a b => keyLE a.1 b.1)
    (s := fun a b => keyLE a.1 b.1) (f := fun entry => (entry.1, Json.string entry.2))
    fun _ _ _ _ => rfl
  rw [entriesOfMembers, ← hsorted, List.foldlM_map]
  exact List.foldlM_pure

/-- A stored cache is restored with its entries, and its counters start again. -/
theorem ofJson_toJson (cache : Cache) :
    ∃ restored, ofJson cache.toJson = .ok restored ∧ restored.hits = 0 ∧ restored.misses = 0 ∧
      restored.entries.entries.Perm cache.entries.entries := by
  have hsorted := List.mergeSort_perm cache.entries.entries fun a b => keyLE a.1 b.1
  have hkeys := (hsorted.map Prod.fst).nodup_iff.2 cache.entries.nodup_keys
  refine ⟨.ofEntries (.ofList (cache.entries.entries.mergeSort fun a b => keyLE a.1 b.1)), ?_, rfl,
    rfl, ?_⟩
  · rw [toJson, ofJson, entriesOfMembers_texts]
    rfl
  · rw [ofEntries, OrderedMap.ofList, OrderedMap.entries_foldl_insert .empty hkeys]
    exact hsorted

/-- Members that are not all strings are refused, for one that is none. -/
theorem entriesOfMembers_eq_error {members : List (Text × Json)}
    (h : ¬ ∀ member ∈ members, ∃ text, member.2 = .string text) :
    ∃ key value, (key, value) ∈ members ∧ (∀ text, value ≠ .string text) ∧
      entriesOfMembers members = .error (.invalidArgument (.entryKind key value.kind)) := by
  cases hentries : entriesOfMembers members with
  | ok entries =>
    refine absurd ?_ h
    intro member hmember
    obtain ⟨before, after, hstep⟩ :=
      Attempt.exists_of_foldlM_eq_ok hentries member (List.mem_mergeSort.2 hmember)
    split at hstep
    case h_1 text htext => exact ⟨text, htext⟩
    case h_2 => cases hstep
  | error error =>
    obtain ⟨⟨key, value⟩, hmember, before, hstep⟩ := Attempt.foldlM_eq_error hentries
    split at hstep
    case h_1 => cases hstep
    case h_2 hother =>
      cases hstep
      exact ⟨key, value, List.mem_mergeSort.1 hmember, hother, rfl⟩

/-- A value that stores no cache is refused with a fault that says why. -/
theorem ofJson_eq_error {stored : Json} (h : ¬ stored.StoresTexts) :
    ∃ fault, fault.Refuses stored ∧ ofJson stored = .error (.invalidArgument fault) := by
  cases stored with
  | object members =>
    have hother : ¬ ∀ member ∈ members, ∃ text, member.2 = .string text :=
      fun hall => h ⟨members, rfl, hall⟩
    obtain ⟨key, value, hmember, hvalue, herror⟩ := entriesOfMembers_eq_error hother
    refine ⟨.entryKind key value.kind, ⟨members, value, rfl, hmember, hvalue, rfl⟩, ?_⟩
    rw [ofJson, herror]
    rfl
  | null | boolean | number | string | array =>
    exact ⟨.cacheKind _, ⟨by simp, rfl⟩, rfl⟩

end Cache

/-! ## Caches with the same entries -/

namespace Cache

/-- Whether two caches hold the same entries, of which the first has counted some more lookups. -/
structure Alike (hits misses : Nat) (cache other : Cache) : Prop where
  get? : ∀ key, cache.get? key = other.get? key
  hits : cache.hits = hits + other.hits
  misses : cache.misses = misses + other.misses

open Compiler

namespace Alike

variable {hits misses : Nat} {cache other : Cache}

/-- A branch gets the same answer from both caches, and they count the same lookup. -/
theorem compileBranch (h : cache.Alike hits misses other) (branch : Text) :
    (compileBranch cache branch).1 = (compileBranch other branch).1 ∧
      (compileBranch cache branch).2.Alike hits misses (compileBranch other branch).2 := by
  have hhits := h.hits
  have hmisses := h.misses
  have hsame := h.get? branch
  cases hget : other.get? branch with
  | some text =>
    rw [compileBranch_of_some hget, compileBranch_of_some (hsame.trans hget)]
    exact ⟨rfl, h.get?, by simp only; omega, h.misses⟩
  | none =>
    cases hpath : pathText branch .descendant with
    | ok text =>
      rw [compileBranch_of_ok hget hpath, compileBranch_of_ok (hsame.trans hget) hpath]
      refine ⟨rfl, fun key => ?_, h.hits, ?_⟩
      · rw [get?_compiled, get?_compiled, h.get?]
      · simp only [compiled, Cache.insert]
        omega
    | error error =>
      rw [compileBranch_of_error hget hpath, compileBranch_of_error (hsame.trans hget) hpath]
      exact ⟨rfl, h.get?, h.hits, by simp only; omega⟩

/-- So do several branches, up to the first that fails. -/
theorem compileBranches (h : cache.Alike hits misses other) (whole : Text) (list : List Branch) :
    (compileBranches whole cache list).1 = (compileBranches whole other list).1 ∧
      (compileBranches whole cache list).2.Alike hits misses
        (compileBranches whole other list).2 := by
  induction list generalizing cache other with
  | nil => exact ⟨rfl, h⟩
  | cons branch list ih =>
    obtain ⟨hanswer, hnext⟩ := h.compileBranch branch.text
    rw [Compiler.compileBranches, Compiler.compileBranches]
    cases hcache : Compiler.compileBranch cache branch.text with
    | mk answer between =>
      cases hother : Compiler.compileBranch other branch.text with
      | mk answer' between' =>
        rw [hcache, hother] at hanswer hnext
        obtain rfl : answer = answer' := hanswer
        cases answer with
        | error error => exact ⟨rfl, hnext⟩
        | ok text =>
          obtain ⟨hlater, hlast⟩ := ih hnext
          exact ⟨congrArg (Except.map (text :: ·)) hlater, hlast⟩

/-- So does a request. -/
theorem compile (h : cache.Alike hits misses other) (relative : Bool) (expression : Text)
    (type : ExpressionType) :
    (compile cache relative expression type).1 = (compile other relative expression type).1 ∧
      (compile cache relative expression type).2.Alike hits misses
        (compile other relative expression type).2 := by
  cases type with
  | xpath => exact ⟨rfl, h⟩
  | css =>
    obtain ⟨hanswer, hnext⟩ := h.compileBranches expression (branches expression)
    exact ⟨congrArg (Except.map (joinBranches relative)) hanswer, hnext⟩

/-- So do any number of requests, answered or refused. -/
theorem answers (h : cache.Alike hits misses other) (requests : List Request) :
    (answers cache requests).1 = (answers other requests).1 ∧
      (answers cache requests).2.Alike hits misses (answers other requests).2 := by
  induction requests generalizing cache other with
  | nil => exact ⟨rfl, h⟩
  | cons request requests ih =>
    obtain ⟨hanswer, hnext⟩ := h.compile request.relative request.expression request.type
    obtain ⟨hothers, hlast⟩ := ih hnext
    exact ⟨congrArg₂ List.cons hanswer hothers, hlast⟩

end Alike

end Cache

namespace Compiler

/-! ## Restored compilers -/

/-- A compiler that is given a stored cache has its entries and has counted nothing yet.  From then on
it answers all requests as the compiler does whose cache was stored, with the same entries and the
same lookups.  A value that stores no cache is refused with a fault that says why, and nothing
changes. -/
theorem restore_stored (cache : Cache) :
    (∃ restored : Cache, (∀ before : Cache, before.restore cache.toJson = (.ok (), restored)) ∧
      restored.entries.entries.Perm cache.entries.entries ∧
      restored.hits = 0 ∧ restored.misses = 0 ∧
      ∀ requests,
        (answers restored requests).1 = (answers cache requests).1 ∧
        (answers restored requests).2.entries.entries.Perm
          (answers cache requests).2.entries.entries ∧
        (answers cache requests).2.hits = cache.hits + (answers restored requests).2.hits ∧
        (answers cache requests).2.misses = cache.misses + (answers restored requests).2.misses) ∧
    ∀ stored : Json, ¬ stored.StoresTexts →
      ∃ fault, fault.Refuses stored ∧
        cache.restore stored = (.error (.invalidArgument fault), cache) := by
  constructor
  · obtain ⟨restored, hrestored, hhits, hmisses, hentries⟩ := Cache.ofJson_toJson cache
    have halike : cache.Alike cache.hits cache.misses restored := by
      refine ⟨fun key => ?_, by omega, by omega⟩
      exact (OrderedMap.perm_entries_iff.1 hentries key).symm
    refine ⟨restored, fun before => ?_, hentries, hhits, hmisses, fun requests => ?_⟩
    · rw [Cache.restore, hrestored]
    · obtain ⟨hanswers, hafter⟩ := halike.answers requests
      refine ⟨hanswers.symm, ?_, hafter.hits, hafter.misses⟩
      exact (OrderedMap.perm_entries_iff.2 hafter.get?).symm
  · intro stored hstored
    obtain ⟨fault, hfault, herror⟩ := Cache.ofJson_eq_error hstored
    refine ⟨fault, hfault, ?_⟩
    rw [Cache.restore, herror]

/-- A text that stands before a number is not restored either. -/
theorem restore_stored_number :
    let cache : Cache := { Cache.empty.insert "a".toList "//a".toList with hits := 2, misses := 1 }
    let stored : Json := .object [("b".toList, .string "//b".toList), ("c".toList, .number 3 0)]
    ¬ stored.StoresTexts ∧ ∃ fault, fault.Refuses stored ∧
      cache.restore stored = (.error (.invalidArgument fault), cache) := by
  intro cache stored
  have hstored : ¬ stored.StoresTexts := by
    rintro ⟨members, hmembers, htexts⟩
    rw [← Json.object.inj hmembers] at htexts
    obtain ⟨text, htext⟩ := htexts ("c".toList, .number 3 0) (by simp)
    cases htext
  exact ⟨hstored, (restore_stored cache).2 stored hstored⟩

end Compiler
end TreeSelect
