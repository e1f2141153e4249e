import TreeSelect.Proofs.Text.Pieces
import TreeSelect.Selector.Branches

/-!
# Square brackets that close

A text is closed if each of its square brackets has its partner in it and each of its quote marks
too; brackets between quote marks do not count.  Such a text can stand between brackets without
ending them: the bracket behind it is their partner (`IsClosed.eq_of_append`).
-/

namespace TreeSelect

/-- The nesting after one more character, where square brackets alone count.  There is none behind a
bracket that closes nothing. -/
def Nesting.follow? (nesting : Nesting) (c : Char) : Option Nesting :=
  match nesting.quote with
  | some quote => some (if c = quote then { nesting with quote := none } else nesting)
  | none =>
    if c = '\'' ∨ c = '"' then some { nesting with quote := some c }
    else if c = '[' then some { nesting with depth := nesting.depth + 1 }
    else if c = ']' then
      match nesting.depth with
      | 0 => none
      | depth + 1 => some { nesting with depth }
    else some nesting

/-- The nesting after a text. -/
def Nesting.after? (nesting : Nesting) (s : Text) : Option Nesting := s.foldlM Nesting.follow? nesting

namespace Text

/-- Each square bracket and each quote mark of the text has its partner in it. -/
def IsClosed (s : Text) : Prop := Nesting.after? {} s = some {}

instance (s : Text) : Decidable s.IsClosed := inferInstanceAs (Decidable (_ = _))

variable {s t : Text}

/-! ## Scanning on -/

theorem after?_append {nesting between : Nesting} (h : nesting.after? s = some between) (t : Text) :
    nesting.after? (s ++ t) = between.after? t := by
  rw [Nesting.after?, List.foldlM_append, show s.foldlM Nesting.follow? nesting = _ from h]
  rfl

theorem isClosed_nil : IsClosed [] := rfl

theorem IsClosed.append (hs : s.IsClosed) (ht : t.IsClosed) : (s ++ t).IsClosed :=
  (after?_append hs t).trans ht

/-- More open brackets around a character change nothing in what it does. -/
theorem follow?_deeper {nesting next : Nesting} {c : Char} (depth : Nat)
    (h : nesting.follow? c = some next) :
    Nesting.follow? { nesting with depth := nesting.depth + depth } c =
      some { next with depth := next.depth + depth } := by
  obtain ⟨outer, quote⟩ := nesting
  cases quote with
  | some quote =>
    simp only [Nesting.follow?, Option.some.injEq] at h ⊢
    rw [← h]
    split <;> rfl
  | none =>
    simp only [Nesting.follow?] at h ⊢
    by_cases hmark : c = '\'' ∨ c = '"'
    · rw [if_pos hmark] at h ⊢
      cases h
      rfl
    rw [if_neg hmark] at h ⊢
    by_cases hopen : c = '['
    · rw [if_pos hopen] at h ⊢
      cases h
      rw [Nat.add_right_comm]
    rw [if_neg hopen] at h ⊢
    by_cases hclose : c = ']'
    · rw [if_pos hclose] at h ⊢
      cases outer with
      | zero => cases h
      | succ outer =>
        cases h
        rw [Nat.add_right_comm]
    · rw [if_neg hclose] at h ⊢
      cases h
      rfl

/-- More open brackets around a text change nothing in it. -/
theorem after?_deeper {nesting last : Nesting} (depth : Nat) (h : nesting.after? s = some last) :
    Nesting.after? { nesting with depth := nesting.depth + depth } s =
      some { last with depth := last.depth + depth } := by
  induction s generalizing nesting with
  | nil =>
    cases h
    rfl
  | cons c s ih =>
    obtain ⟨next, hnext, hrest⟩ := Option.bind_eq_some_iff.1 h
    rw [Nesting.after?, List.foldlM_cons, follow?_deeper depth hnext]
    exact ih hrest

/-! ## Closed texts -/

/-- Where there are neither brackets nor quote marks, all of them close. -/
theorem isClosed_of_forall (h : ∀ c ∈ s, c ∉ ['[', ']', '\'', '"']) : s.IsClosed := by
  induction s with
  | nil => exact isClosed_nil
  | cons c s ih =>
    have hc := h c List.mem_cons_self
    simp only [List.mem_cons, List.not_mem_nil, or_false, not_or] at hc
    have hfollow : Nesting.follow? {} c = some {} := by
      simp [Nesting.follow?, hc]
    rw [IsClosed, Nesting.after?, List.foldlM_cons, hfollow]
    exact ih fun d hd => h d (List.mem_cons_of_mem c hd)

theorem IsClosed.brackets (h : s.IsClosed) : IsClosed ('[' :: s ++ [']']) := by
  have hinside : Nesting.after? {} ('[' :: s) = some { depth := 1 } := after?_deeper 1 h
  exact after?_append hinside [']']

/-- Between two quote marks of one kind, anything but that mark is closed. -/
theorem isClosed_quoted {mark : Char} (hmark : mark = '\'' ∨ mark = '"') (hs : mark ∉ s) :
    IsClosed (mark :: s ++ [mark]) := by
  have hopen : Nesting.follow? {} mark = some { quote := some mark } := if_pos hmark
  have hclose : Nesting.after? { quote := some mark } [mark] = some {} := by
    simp [Nesting.after?, Nesting.follow?]
  have hinside : Nesting.after? { quote := some mark } s = some { quote := some mark } := by
    induction s with
    | nil => rfl
    | cons c s ih =>
      rw [List.mem_cons, not_or] at hs
      rw [Nesting.after?, List.foldlM_cons]
      simp only [Nesting.follow?, if_neg fun hcase : c = mark => hs.1 hcase.symm]
      exact ih hs.2
  rw [IsClosed, Nesting.after?, List.cons_append, List.foldlM_cons, hopen]
  exact (after?_append hinside [mark]).trans hclose

theorem isClosed_flatMap {α : Type} {list : List α} {f : α → Text}
    (h : ∀ a ∈ list, (f a).IsClosed) : IsClosed (list.flatMap f) := by
  induction list with
  | nil => exact isClosed_nil
  | cons a list ih =>
    exact (h a List.mem_cons_self).append (ih fun b hb => h b (List.mem_cons_of_mem a hb))

theorem isClosed_intercalate {separator : Text} {pieces : List Text} (hseparator : separator.IsClosed)
    (h : ∀ piece ∈ pieces, piece.IsClosed) : IsClosed (separator.intercalate pieces) := by
  cases pieces with
  | nil => exact isClosed_nil
  | cons first others =>
    rw [intercalate_cons]
    refine (h first List.mem_cons_self).append (isClosed_flatMap fun other hother => ?_)
    exact hseparator.append (h other (List.mem_cons_of_mem first hother))

/-! ## Brackets behind closed texts -/

/-- A bracket that closes nothing ends every scan. -/
theorem not_isClosed_append_bracket (h : s.IsClosed) (t : Text) : ¬ IsClosed (s ++ ']' :: t) := by
  intro hclosed
  rw [IsClosed, after?_append h] at hclosed
  cases hclosed

/-- The first bracket behind a closed text is the one that it does not open. -/
theorem IsClosed.eq_of_append {u v : Text} (hs : s.IsClosed) (ht : t.IsClosed)
    (h : s ++ ']' :: u = t ++ ']' :: v) : s = t ∧ u = v := by
  rcases List.append_eq_append_iff.1 h with ⟨more, rfl, hrest⟩ | ⟨more, rfl, hrest⟩
  · cases more with
    | nil =>
      rw [List.append_nil]
      exact ⟨rfl, (List.cons.inj hrest).2⟩
    | cons c more =>
      cases (List.cons.inj hrest).1
      exact absurd ht (not_isClosed_append_bracket hs more)
  · cases more with
    | nil =>
      rw [List.append_nil]
      exact ⟨rfl, (List.cons.inj hrest).2.symm⟩
    | cons c more =>
      cases (List.cons.inj hrest).1
      exact absurd hs (not_isClosed_append_bracket ht more)

end Text
end TreeSelect
