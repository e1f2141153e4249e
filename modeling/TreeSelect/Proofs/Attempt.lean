/-!
# Computations that may fail

What can be said of the parts of a computation in `Except` once it is known how the whole of it has
ended.  The proofs of this library take computations apart with these lemmas and do not unfold `bind`
and `map`.
-/

namespace TreeSelect.Attempt

variable {ε ε' α β : Type}

/-- A sequence succeeds if its first part does, and its second part on what the first one gives. -/
theorem bind_eq_ok {x : Except ε α} {f : α → Except ε β} {b : β} :
    x >>= f = .ok b ↔ ∃ a, x = .ok a ∧ f a = .ok b := by
  cases x with
  | error error => simp [bind, Except.bind]
  | ok a => simp [bind, Except.bind]

/-- A sequence fails if its first part does, or its second part on what the first one gives. -/
theorem bind_eq_error {x : Except ε α} {f : α → Except ε β} {error : ε} :
    x >>= f = .error error ↔ x = .error error ∨ ∃ a, x = .ok a ∧ f a = .error error := by
  cases x with
  | error other => simp [bind, Except.bind]
  | ok a => simp [bind, Except.bind]

/-- Computations that give the same, if they give anything, succeed together or fail together. -/
theorem both_of_ok_iff {x y : Except ε α} (h : ∀ a, x = .ok a ↔ y = .ok a) :
    (∃ a, x = .ok a ∧ y = .ok a) ∨
      ((∃ error, x = .error error) ∧ ∃ error, y = .error error) := by
  cases x with
  | ok a => exact .inl ⟨a, rfl, (h a).1 rfl⟩
  | error error =>
    cases y with
    | ok a => cases (h a).2 rfl
    | error other => exact .inr ⟨⟨error, rfl⟩, ⟨other, rfl⟩⟩

theorem map_eq_ok {x : Except ε α} {f : α → β} {b : β} :
    x.map f = .ok b ↔ ∃ a, x = .ok a ∧ f a = b := by
  cases x with
  | error error => simp [Except.map]
  | ok a => simp [Except.map]

theorem map_eq_error {x : Except ε α} {f : α → β} {error : ε} :
    x.map f = .error error ↔ x = .error error := by
  cases x with
  | error other => simp [Except.map]
  | ok a => simp [Except.map]

theorem mapError_eq_ok {x : Except ε α} {f : ε → ε'} {a : α} :
    x.mapError f = .ok a ↔ x = .ok a := by
  constructor
  · intro h
    cases x with
    | error error => cases h
    | ok a =>
      cases h
      rfl
  · intro hcase
    subst hcase
    rfl

theorem isOk_map (x : Except ε α) (f : α → β) : (x.map f).isOk = x.isOk := by
  cases x <;> rfl

/-! ## One element after another -/

/-- All of a list succeeds if its first element does, and all of the others. -/
theorem mapM_cons_eq_ok {f : α → Except ε β} {a : α} {list : List α} {results : List β} :
    (a :: list).mapM f = .ok results ↔
      ∃ b others, f a = .ok b ∧ list.mapM f = .ok others ∧ results = b :: others := by
  rw [List.mapM_cons]
  constructor
  · intro h
    obtain ⟨b, hb, h⟩ := bind_eq_ok.1 h
    obtain ⟨others, hothers, h⟩ := bind_eq_ok.1 h
    cases h
    exact ⟨b, others, hb, hothers, rfl⟩
  · rintro ⟨b, others, hb, hothers, rfl⟩
    rw [hb, hothers]
    rfl

theorem mapM_ne_nil {f : α → Except ε β} {list : List α} {results : List β}
    (h : list.mapM f = .ok results) (hne : list ≠ []) : results ≠ [] := by
  obtain ⟨first, others, rfl⟩ := List.exists_cons_of_ne_nil hne
  obtain ⟨result, results, -, -, rfl⟩ := mapM_cons_eq_ok.1 h
  exact List.cons_ne_nil result results

/-- The first element that fails decides the error. -/
theorem mapM_append_cons_of_error {f : α → Except ε β} {list : List α} {results : List β}
    (h : list.mapM f = .ok results) {a : α} {error : ε} (ha : f a = .error error)
    (others : List α) : (list ++ a :: others).mapM f = .error error := by
  rw [List.mapM_append, h, List.mapM_cons, ha]
  rfl

/-- Where each step succeeds, so does the whole. -/
theorem foldlM_eq_ok {step : β → α → Except ε β} {next : β → α → β} {list : List α}
    (h : ∀ a ∈ list, ∀ b, step b a = .ok (next b a)) (start : β) :
    list.foldlM step start = .ok (list.foldl next start) := by
  induction list generalizing start with
  | nil => rfl
  | cons a list ih =>
    rw [List.foldlM_cons, h a List.mem_cons_self start]
    exact ih (fun other hother => h other (List.mem_cons_of_mem a hother)) (next start a)

/-- Where the whole succeeds, each step does. -/
theorem exists_of_foldlM_eq_ok {step : β → α → Except ε β} {list : List α} {start result : β}
    (h : list.foldlM step start = .ok result) : ∀ a ∈ list, ∃ b next, step b a = .ok next := by
  induction list generalizing start with
  | nil => simp
  | cons a list ih =>
    rw [List.foldlM_cons] at h
    obtain ⟨next, hnext, hlater⟩ := bind_eq_ok.1 h
    exact List.forall_mem_cons.2 ⟨⟨start, next, hnext⟩, ih hlater⟩

/-- Where the whole fails, one of the steps does. -/
theorem foldlM_eq_error {step : β → α → Except ε β} {list : List α} {start : β} {error : ε}
    (h : list.foldlM step start = .error error) : ∃ a ∈ list, ∃ b, step b a = .error error := by
  induction list generalizing start with
  | nil => cases h
  | cons a list ih =>
    rw [List.foldlM_cons] at h
    cases hstep : step start a with
    | error other =>
      rw [hstep] at h
      cases h
      exact ⟨a, List.mem_cons_self, start, hstep⟩
    | ok next =>
      rw [hstep] at h
      obtain ⟨other, hother, hfails⟩ := ih h
      exact ⟨other, List.mem_cons_of_mem a hother, hfails⟩

end TreeSelect.Attempt
