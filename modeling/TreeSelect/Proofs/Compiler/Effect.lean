import TreeSelect.Proofs.Compiler.Memoisation

/-!
# What compiling does to the cache

A selector list is compiled up to the first branch that fails, and what was done before that branch
stays done.  Nothing is asked of the cache here: its entries may hold any texts.

* `fails` says that a branch ends the compilation.  Compiling other branches does not change that
  (`fails_compiled`).
* `compileBranches_cons` lists the three things that can happen to the first branch of a run.
* `Effect` relates the caches before and after a run over branches, and `effect_compileBranches` is
  the induction over the branches.
* `compile_effect` says the same of a whole call.
-/

namespace TreeSelect.Compiler

variable {cache : Cache} {branch : Text}

/-! ## One branch -/

/-- Whether a branch ends the compilation: the cache does not hold it, and it does not compile. -/
def fails (cache : Cache) (branch : Text) : Bool :=
  (cache.get? branch).isNone && !(pathText branch .descendant).isOk

/-- A branch that the cache holds is a hit. -/
theorem compileBranch_of_some {text : Text} (h : cache.get? branch = some text) :
    compileBranch cache branch = (.ok text, { cache with hits := cache.hits + 1 }) := by
  simp [compileBranch, Cache.lookup, h]

/-- The cache after a miss and the insertion of what the branch compiles to. -/
def compiled (cache : Cache) (branch text : Text) : Cache :=
  { cache with misses := cache.misses + 1 }.insert branch text

theorem compileBranch_of_ok {text : Text} (h : cache.get? branch = none)
    (htext : pathText branch .descendant = .ok text) :
    compileBranch cache branch = (.ok text, compiled cache branch text) := by
  simp [compileBranch, Cache.lookup, h, htext, compiled]

/-- A branch that fails is a miss and leaves no entry. -/
theorem compileBranch_of_error {error : SelectorError} (h : cache.get? branch = none)
    (herror : pathText branch .descendant = .error error) :
    compileBranch cache branch = (.error error, { cache with misses := cache.misses + 1 }) := by
  simp [compileBranch, Cache.lookup, h, herror]

theorem get?_compiled (text key : Text) :
    (compiled cache branch text).get? key = if key = branch then some text else cache.get? key :=
  OrderedMap.get?_insert cache.entries branch key text

/-- A branch that has been compiled does not fail, and no other branch is affected. -/
theorem fails_compiled {text : Text} (htext : pathText branch .descendant = .ok text) (key : Text) :
    fails (compiled cache branch text) key = fails cache key := by
  unfold fails
  rw [get?_compiled]
  split
  case isTrue hkey =>
    subst hkey
    simp [htext, Except.isOk, Except.toBool]
  case isFalse => rfl

/-! ## Several branches -/

/-- What a run over branches gives once a first branch with the text `text` has been passed. -/
def passing (text : Text) (later : Except SelectorError (List Text) × Cache) :
    Except SelectorError (List Text) × Cache :=
  (later.1.map (text :: ·), later.2)

/-- The first branch of a run is a hit, or it is compiled anew, or it ends the run. -/
theorem compileBranches_cons (whole : Text) (cache : Cache) (branch : Branch) (list : List Branch) :
    (∃ text, cache.get? branch.text = some text ∧
      compileBranches whole cache (branch :: list) =
        passing text (compileBranches whole { cache with hits := cache.hits + 1 } list)) ∨
    (∃ text, cache.get? branch.text = none ∧ pathText branch.text .descendant = .ok text ∧
      compileBranches whole cache (branch :: list) =
        passing text (compileBranches whole (compiled cache branch.text text) list)) ∨
    ∃ error, cache.get? branch.text = none ∧ pathText branch.text .descendant = .error error ∧
      compileBranches whole cache (branch :: list) =
        (.error (error.within whole branch.offset), { cache with misses := cache.misses + 1 }) := by
  rw [compileBranches]
  cases hget : cache.get? branch.text with
  | some text =>
    rw [compileBranch_of_some hget]
    exact .inl ⟨text, rfl, rfl⟩
  | none =>
    cases hpath : pathText branch.text .descendant with
    | ok text =>
      rw [compileBranch_of_ok hget hpath]
      exact .inr (.inl ⟨text, rfl, rfl, rfl⟩)
    | error error =>
      rw [compileBranch_of_error hget hpath]
      exact .inr (.inr ⟨error, rfl, rfl, rfl⟩)

/-- The number of branches before the first one that ends the compilation. -/
def reach (cache : Cache) (texts : List Text) : Nat := texts.findIdx (fails cache)

/-- Whether the branch at a place is a hit: the cache held it before, or it stands at an earlier
place too. -/
def isHit (cache : Cache) (texts : List Text) (place : Nat) : Bool :=
  texts[place]?.any fun text => (cache.get? text).isSome || (texts.take place).contains text

/-- The places of the branches that are looked up: those before the first that ends the compilation,
and that one. -/
def lookedUp (cache : Cache) (texts : List Text) : List Nat :=
  List.range (texts.take (reach cache texts + 1)).length

/-- What a run over branches does to the cache, and whether it succeeds. -/
structure Effect (before after : Cache) (texts : List Text) (success : Bool) : Prop where
  success_iff : success = true ↔ reach before texts = texts.length
  get? : ∀ key, after.get? key = (before.get? key).or
    (if key ∈ texts.take (reach before texts) then (pathText key .descendant).toOption else none)
  hits : after.hits = before.hits + (lookedUp before texts).countP (isHit before texts)
  misses : after.misses =
    before.misses + (lookedUp before texts).countP fun place => !isHit before texts place

/-- The first branch is a hit exactly if the cache held it before. -/
theorem isHit_zero (texts : List Text) :
    isHit cache (branch :: texts) 0 = (cache.get? branch).isSome := by
  simp [isHit]

/-- A branch that is reached but not passed ends the run. -/
theorem effect_of_error {error : SelectorError} (h : cache.get? branch = none)
    (herror : pathText branch .descendant = .error error) (texts : List Text) :
    Effect cache { cache with misses := cache.misses + 1 } (branch :: texts) false := by
  have hreach : reach cache (branch :: texts) = 0 := by
    simp [reach, List.findIdx_cons, fails, h, herror, Except.isOk, Except.toBool]
  have hlooked : lookedUp cache (branch :: texts) = [0] := by
    simp [lookedUp, hreach, List.range_succ]
  constructor
  · simp [hreach]
  · intro key
    simp only [hreach, List.take_zero, List.not_mem_nil, if_false, Option.or_none]
    rfl
  · simp [hlooked, isHit_zero, h]
  · simp [hlooked, isHit_zero, h]

/-- A branch that is passed leaves a cache `between`, in which everything else goes on as it would
have without that branch, and the branch itself is there. -/
theorem Effect.cons {between after : Cache} {texts : List Text} {success : Bool}
    (heffect : Effect between after texts success) (hpassed : fails cache branch = false)
    (hfails : fails between = fails cache)
    (hget : ∀ key, between.get? key = (cache.get? key).or
      (if key = branch then (pathText branch .descendant).toOption else none))
    (hhits : between.hits = cache.hits + if (cache.get? branch).isSome then 1 else 0)
    (hmisses : between.misses = cache.misses + if (cache.get? branch).isSome then 0 else 1) :
    Effect cache after (branch :: texts) success := by
  have hreach : reach cache (branch :: texts) = reach between texts + 1 := by
    rw [reach, List.findIdx_cons, hpassed, reach, hfails]
    rfl
  have hlooked : lookedUp cache (branch :: texts) = 0 :: (lookedUp between texts).map Nat.succ := by
    rw [lookedUp, hreach, List.take_succ_cons, List.length_cons, List.range_succ_eq_map]
    rfl
  have hthere : (between.get? branch).isSome = true := by
    rw [hget, if_pos rfl]
    simp only [fails, Bool.and_eq_false_iff] at hpassed
    cases hbranch : cache.get? branch with
    | some text => rfl
    | none =>
      cases hpath : pathText branch .descendant with
      | ok text => rfl
      | error error => simp [hbranch, hpath, Except.isOk, Except.toBool] at hpassed
  have hlater : ∀ place, isHit cache (branch :: texts) (place + 1) = isHit between texts place := by
    intro place
    simp only [isHit, List.getElem?_cons_succ, List.take_succ_cons]
    congr 1
    funext text
    by_cases htext : text = branch
    · subst htext
      simp [hthere]
    · simp [hget, htext]
  constructor
  · rw [heffect.success_iff, hreach, List.length_cons, Nat.succ_inj]
  · intro key
    rw [heffect.get?, hget, hreach, List.take_succ_cons]
    by_cases hkey : key = branch
    · subst hkey
      rw [hget, if_pos rfl] at hthere
      simp [Option.or_of_isSome hthere]
    · simp [hkey]
  · have hshift : isHit cache (branch :: texts) ∘ Nat.succ = isHit between texts := funext hlater
    rw [heffect.hits, hhits, hlooked, List.countP_cons, List.countP_map, isHit_zero, hshift]
    omega
  · have hshift : (fun place => !isHit cache (branch :: texts) place) ∘ Nat.succ =
        fun place => !isHit between texts place := by
      funext place
      exact congrArg not (hlater place)
    rw [heffect.misses, hmisses, hlooked, List.countP_cons, List.countP_map, isHit_zero, hshift]
    cases (cache.get? branch).isSome with
    | true => simp
    | false => simp; omega

/-- Branches are compiled in their order up to the first that ends the compilation. -/
theorem effect_compileBranches (whole : Text) (cache : Cache) (list : List Branch) :
    Effect cache (compileBranches whole cache list).2 (list.map Branch.text)
      (compileBranches whole cache list).1.isOk := by
  induction list generalizing cache with
  | nil => constructor <;> simp [reach, lookedUp, compileBranches, Except.isOk, Except.toBool]
  | cons branch list ih =>
    obtain ⟨text, hget, hrun⟩ | ⟨text, hget, hpath, hrun⟩ | ⟨error, hget, hpath, hrun⟩ :=
      compileBranches_cons whole cache branch list
    · simp only [hrun, passing, Attempt.isOk_map, List.map_cons]
      refine (ih { cache with hits := cache.hits + 1 }).cons (by simp [fails, hget]) rfl ?_
        (by simp [hget]) (by simp [hget])
      intro key
      by_cases hkey : key = branch.text
      · subst hkey
        show cache.get? branch.text = _
        simp [hget]
      · show cache.get? key = _
        simp [hkey]
    · simp only [hrun, passing, Attempt.isOk_map, List.map_cons]
      refine (ih (compiled cache branch.text text)).cons
        (by simp [fails, hget, hpath, Except.isOk, Except.toBool])
        (funext (fails_compiled hpath)) ?_ ?_ ?_
      · intro key
        rw [get?_compiled]
        by_cases hkey : key = branch.text
        · subst hkey
          simp [hget, hpath, Except.toOption]
        · simp [hkey]
      · simp [hget, compiled, Cache.insert]
      · simp [hget, compiled, Cache.insert]
    · rw [hrun]
      exact effect_of_error hget hpath (list.map Branch.text)

/-- After a run that succeeds the cache holds all branches, and what it held before. -/
theorem Effect.mem_keys {before after : Cache} {texts : List Text}
    (h : Effect before after texts true) (key : Text) :
    key ∈ after.entries.keys ↔ key ∈ before.entries.keys ∨ key ∈ texts := by
  have hreach := h.success_iff.1 rfl
  have hget := h.get? key
  rw [hreach, List.take_length] at hget
  rw [← not_iff_not, not_or, ← OrderedMap.get?_eq_none_iff, ← OrderedMap.get?_eq_none_iff]
  show after.get? key = none ↔ before.get? key = none ∧ _
  rw [hget, Option.or_eq_none_iff]
  refine and_congr_right fun hkey => ?_
  by_cases hmem : key ∈ texts
  · -- No branch ends the run, so one that the cache did not hold compiles.
    have hpassed := List.findIdx_eq_length.1 hreach key hmem
    rw [fails, hkey] at hpassed
    cases hpath : pathText key .descendant with
    | ok text => simp [hmem, Except.toOption]
    | error error => simp [hpath, Except.isOk, Except.toBool] at hpassed
  · simp [hmem]

/-! ## A call -/

/-- A call with a selector list compiles its branches up to the first that is neither in the cache
nor compiles, and it succeeds if there is none.  The entries that were there stay as they are, and
the branches before that one are added if they are new, but no other branch.  Each branch that is
looked up counts once: as a hit if it was in the cache before the call or stands at an earlier place
of the list, and else as a miss. -/
theorem compile_effect (cache : Cache) (relative : Bool) (expression : Text) :
    let texts := (branches expression).map Branch.text
    let stop := texts.findIdx (fails cache)
    let answer := (compile cache relative expression .css).1
    let after := (compile cache relative expression .css).2
    let examined := List.range (min (stop + 1) texts.length)
    (answer.isOk = true ↔ stop = texts.length) ∧
    (∀ key text, cache.get? key = some text → after.get? key = some text) ∧
    (∀ key text, cache.get? key = none →
      (after.get? key = some text ↔ key ∈ texts.take stop ∧ pathText key .descendant = .ok text)) ∧
    (∀ key, key ∉ texts.take stop → after.get? key = cache.get? key) ∧
    (∀ key ∈ texts[stop]?, after.get? key = none) ∧
    after.hits + after.misses = cache.hits + cache.misses + examined.length ∧
    after.hits = cache.hits + examined.countP (isHit cache texts) ∧
    after.misses = cache.misses + examined.countP fun place => !isHit cache texts place := by
  intro texts stop answer after examined
  have heffect := effect_compileBranches expression cache (branches expression)
  have hanswer : answer.isOk = (compileBranches expression cache (branches expression)).1.isOk :=
    Attempt.isOk_map _ _
  have hexamined : lookedUp cache texts = examined := by
    rw [lookedUp, List.length_take]
    rfl
  have hget : ∀ key, after.get? key = (cache.get? key).or
      (if key ∈ texts.take stop then (pathText key .descendant).toOption else none) :=
    heffect.get?
  have hhits : after.hits = cache.hits + examined.countP (isHit cache texts) := by
    rw [← hexamined]
    exact heffect.hits
  have hmisses : after.misses =
      cache.misses + examined.countP fun place => !isHit cache texts place := by
    rw [← hexamined]
    exact heffect.misses
  refine ⟨?_, ?_, ?_, ?_, ?_, ?_, hhits, hmisses⟩
  · rw [hanswer]
    exact heffect.success_iff
  · intro key text hkey
    rw [hget, hkey, Option.some_or]
  · intro key text hkey
    rw [hget, hkey, Option.none_or]
    cases pathText key .descendant <;> simp [Except.toOption]
  · intro key hkey
    rw [hget, if_neg hkey, Option.or_none]
  · intro key hkey
    obtain ⟨hlt, hstop⟩ := List.getElem?_eq_some_iff.1 hkey
    have hfails : fails cache key = true := by
      rw [← hstop]
      exact List.findIdx_getElem
    rw [fails, Bool.and_eq_true, Option.isNone_iff_eq_none] at hfails
    rw [hget, hfails.1, Option.none_or]
    cases hpath : pathText key .descendant with
    | ok text => simp [hpath, Except.isOk, Except.toBool] at hfails
    | error error => simp [Except.toOption]
  · have hlength := List.length_eq_countP_add_countP (isHit cache texts) (l := examined)
    simp only [Bool.not_eq_true, Bool.decide_eq_false] at hlength
    omega

end TreeSelect.Compiler
