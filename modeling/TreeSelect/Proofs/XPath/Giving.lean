import TreeSelect.Proofs.XPath.Reading

/-!
# What a parser has read

`p.Gives s value rest` says that somewhere the parser has taken `value` from the beginning of `s` and
left `rest`.  Where `Reads` says what must come out of a text, this relation is about what did come
out: one lemma for each combinator takes a result apart into the results of its parts.

A parser that reads a text gives what it reads (`Reads.eq_of_gives`), and one that refuses it gives
nothing (`Refuses.not_gives`), so that both can be used beside the lemmas of this module.
-/

namespace TreeSelect.XPath.Parser

variable {α β : Type} {p q : Parser α} {s rest : Text} {value : α}

/-- The parser has taken `value` from the beginning of `s` and left `rest`. -/
def Gives (parser : Parser α) (s : Text) (value : α) (rest : Text) : Prop :=
  ∃ offset next furthest, parser ⟨offset, s⟩ = ⟨some (value, ⟨next, rest⟩), furthest⟩

theorem Reads.eq_of_gives {other : α} {left : Text} (h : p.Reads s value rest)
    (hgives : p.Gives s other left) : other = value ∧ left = rest := by
  obtain ⟨offset, next, furthest, hgives⟩ := hgives
  obtain ⟨next', furthest', h⟩ := h offset
  rw [h] at hgives
  cases hgives
  exact ⟨rfl, rfl⟩

theorem Refuses.not_gives (h : p.Refuses s) : ¬ p.Gives s value rest := by
  intro hcase
  rcases hcase with ⟨offset, next, furthest, hgives⟩
  obtain ⟨furthest', h⟩ := h offset
  rw [h] at hgives
  cases hgives

/-! ## Sequences -/

theorem gives_pure {a : α} (h : (pure a : Parser α).Gives s value rest) : value = a ∧ rest = s := by
  obtain ⟨offset, next, furthest, h⟩ := h
  cases h
  exact ⟨rfl, rfl⟩

theorem Gives.of_bind {f : α → Parser β} {b : β} (h : (p >>= f).Gives s b rest) :
    ∃ a middle, p.Gives s a middle ∧ (f a).Gives middle b rest := by
  obtain ⟨offset, next, furthest, h⟩ := h
  have h' : andThen p f ⟨offset, s⟩ = _ := h
  unfold andThen at h'
  split at h'
  case h_1 => cases h'
  case h_2 a place furthest' hp =>
    obtain ⟨between, middle⟩ := place
    cases hf : f a ⟨between, middle⟩ with
    | mk result others =>
      rw [hf] at h'
      cases h'
      exact ⟨a, middle, ⟨offset, between, furthest', hp⟩, between, next, others, hf⟩

theorem gives_blanks {u : Unit} (h : blanks.Gives s u rest) : rest = skipGap s := by
  obtain ⟨offset, next, furthest, h⟩ := h
  cases h
  rfl

/-- Behind blanks a part begins with no gap. -/
theorem Gives.of_bind_blanks {f : α → Parser β} {b : β}
    (h : (p >>= fun a => blanks >>= fun _ => f a).Gives s b rest) :
    ∃ a middle, p.Gives s a middle ∧ (f a).Gives (skipGap middle) b rest := by
  obtain ⟨a, middle, hfirst, h⟩ := h.of_bind
  obtain ⟨_, after, hblanks, h⟩ := h.of_bind
  rw [gives_blanks hblanks] at h
  exact ⟨a, middle, hfirst, h⟩

theorem Gives.of_bind_pure {f : α → β} {b : β}
    (h : (p >>= fun a => pure (f a)).Gives s b rest) : ∃ a, p.Gives s a rest ∧ b = f a := by
  obtain ⟨a, middle, hfirst, h⟩ := h.of_bind
  obtain ⟨hvalue, hrest⟩ := gives_pure h
  rw [← hrest] at hfirst
  exact ⟨a, hfirst, hvalue⟩

/-! ## Choice -/

theorem Gives.of_orElse (h : (orElse p q).Gives s value rest) :
    p.Gives s value rest ∨ q.Gives s value rest := by
  obtain ⟨offset, next, furthest, h⟩ := h
  unfold orElse at h
  split at h
  case h_1 taken furthest' hp =>
    cases h
    exact .inl ⟨offset, next, furthest, hp⟩
  case h_2 furthest' hp =>
    cases hq : q ⟨offset, s⟩ with
    | mk result others =>
      rw [hq] at h
      cases h
      exact .inr ⟨offset, next, others, hq⟩

theorem Gives.of_orElse_refuses (h : (orElse p q).Gives s value rest) (hp : p.Refuses s) :
    q.Gives s value rest :=
  h.of_orElse.resolve_left hp.not_gives

theorem Gives.of_oneOf {parsers : List (Parser α)} (h : (oneOf parsers).Gives s value rest) :
    ∃ parser ∈ parsers, parser.Gives s value rest := by
  induction parsers with
  | nil =>
    obtain ⟨offset, next, furthest, h⟩ := h
    cases h
  | cons first others ih =>
    rcases Gives.of_orElse h with hfirst | hothers
    · exact ⟨first, List.mem_cons_self, hfirst⟩
    · obtain ⟨parser, hparser, hgives⟩ := ih hothers
      exact ⟨parser, List.mem_cons_of_mem first hparser, hgives⟩

theorem Gives.of_optional {found : Option α} (h : (optional p).Gives s found rest) :
    (∃ a, found = some a ∧ p.Gives s a rest) ∨ (found = none ∧ rest = s) := by
  rcases Gives.of_orElse h with hsome | hnone
  · obtain ⟨a, hgives, rfl⟩ := Gives.of_bind_pure hsome
    exact .inl ⟨a, rfl, hgives⟩
  · exact .inr (gives_pure hnone)

/-- Behind a lookahead the text is the same, and it is not one that the parser reads. -/
theorem Gives.of_absent {u : Unit} (h : (absent p).Gives s u rest) :
    rest = s ∧ ∀ value after, ¬ p.Reads s value after := by
  obtain ⟨offset, next, furthest, h⟩ := h
  unfold absent at h
  split at h
  case h_1 => cases h
  case h_2 hnone =>
    cases h
    refine ⟨rfl, fun value after hreads => ?_⟩
    obtain ⟨place, furthest', hreads⟩ := hreads offset
    rw [hreads] at hnone
    cases hnone

/-! ## Rules and lexemes -/

theorem Gives.of_rule (h : (rule p).Gives s value rest) : p.Gives s value rest := by
  obtain ⟨offset, next, furthest, h⟩ := h
  unfold rule at h
  split at h
  case h_1 => cases h
  case h_2 => exact ⟨offset, next, furthest, h⟩

theorem gives_lexeme {scan : Text → Option (Text × Text)} {taken : Text}
    (h : (lexeme scan).Gives s taken rest) : scan s = some (taken, rest) := by
  obtain ⟨offset, next, furthest, h⟩ := h
  unfold lexeme at h
  split at h
  case h_1 hscan =>
    cases h
    exact hscan
  case h_2 => cases h

theorem gives_exactly {expected taken : Text} (h : (exactly expected).Gives s taken rest) :
    s = expected ++ rest :=
  (scanText_eq_some_iff.1 (gives_lexeme h)).2

/-! ## Repetition -/

/-- `Series p s values rest`: one part after another, with blanks before each of them, has given
`values`. -/
inductive Series (p : Parser α) : Text → List α → Text → Prop
  | done {t : Text} : Series p t [] t
  | part {t middle last : Text} {a : α} {values : List α} (h : p.Gives (skipGap t) a middle)
      (hrest : Series p middle values last) : Series p t (a :: values) last

theorem series_of_manyDirect {cursor : Cursor} {values : List α} {last : Cursor} {furthest : Nat}
    (h : manyDirect (do blanks; p) cursor = ⟨some (values, last), furthest⟩) :
    Series p cursor.rest values last.rest := by
  induction hlength : cursor.rest.length using Nat.strongRecOn
    generalizing cursor values last furthest with
  | ind length ih =>
    rw [manyDirect] at h
    split at h
    case h_1 =>
      cases h
      exact .done
    case h_2 a next others hpart =>
      obtain ⟨_, middle, hblanks, hgives⟩ :=
        Gives.of_bind (f := fun _ => p) ⟨cursor.offset, next.offset, others, hpart⟩
      rw [gives_blanks hblanks] at hgives
      split at h
      case isTrue hshorter =>
        split at h
        case h_1 => cases h
        case h_2 later last' furthest' hlater =>
          cases h
          exact .part hgives (ih _ (hlength ▸ hshorter) hlater rfl)
      case isFalse =>
        cases h
        exact .part hgives .done

theorem Gives.of_many {values : List α} (hs : skipGap s = s) (h : (many p).Gives s values rest) :
    Series p s values rest := by
  rcases Gives.of_orElse h with hparts | hnone
  · obtain ⟨a, middle, hfirst, hlater⟩ := hparts.of_bind
    obtain ⟨others, ⟨offset, next, furthest, hothers⟩, rfl⟩ := hlater.of_bind_pure
    rw [← hs] at hfirst
    exact .part hfirst (series_of_manyDirect hothers)
  · obtain ⟨rfl, rfl⟩ := gives_pure hnone
    exact .done

end TreeSelect.XPath.Parser
