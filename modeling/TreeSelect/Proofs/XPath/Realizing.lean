import TreeSelect.Proofs.XPath.Lexemes
import TreeSelect.XPath.Rules

/-!
# Parsers that realize patterns

A parser realizes a pattern if the two do the same on each text: where the parser succeeds, the
pattern takes the same text, and its pairs fit the value of the parser; where the parser fails, the
pattern fails.  There is one lemma for each way to put parsers together.

What fits is told by a predicate of the value, the text that was taken, and the pairs.  In a
sequence (`Realizes.andThen`) the predicate for the second part is the one for the whole with the
first part filled in, so that a rule is gone through from its beginning to its end.

The length of the text is bounded, since the parser of the expressions in brackets is known on
shorter texts only.  Behind a sign the bound is smaller by one (`Realizes.behind_sign`).
-/

namespace TreeSelect.XPath.Parser

open TreeSelect.Peg (Mode Modifier Pair Pattern)

variable {α β : Type} {input : Text} {n : Nat} {mode : Mode} {p q : Parser α}
  {pattern other : Pattern Rule} {fits : α → Text → List (Pair Rule) → Prop}

/-! ## Results -/

theorem result_bind (p : Parser α) (f : α → Parser β) (cursor : Cursor) :
    ((p >>= f) cursor).result =
      (p cursor).result.bind fun taken => (f taken.1 taken.2).result := by
  show (andThen p f cursor).result = _
  unfold andThen
  rcases p cursor with ⟨_ | ⟨a, next⟩, furthest⟩ <;> rfl

theorem result_orElse (p q : Parser α) (cursor : Cursor) :
    (orElse p q cursor).result = (p cursor).result.or (q cursor).result := by
  unfold orElse
  rcases p cursor with ⟨_ | taken, furthest⟩ <;> rfl

theorem result_rule (p : Parser α) (cursor : Cursor) :
    (rule p cursor).result = (p cursor).result := by
  unfold rule
  rcases p cursor with ⟨_ | taken, furthest⟩ <;> rfl

theorem result_manyDirect (p : Parser α) (cursor : Cursor) :
    (manyDirect p cursor).result =
      match (p cursor).result with
      | none => some ([], cursor)
      | some (value, next) =>
        if next.rest.length < cursor.rest.length then
          (manyDirect p next).result.map fun taken => (value :: taken.1, taken.2)
        else some ([value], next) := by
  rw [manyDirect.eq_def]
  rcases p cursor with ⟨_ | ⟨value, next⟩, furthest⟩
  · rfl
  · by_cases hlt : next.rest.length < cursor.rest.length
    · simp only [hlt, if_true, dite_true]
      rcases manyDirect p next with ⟨_ | taken, others⟩ <;> rfl
    · simp [hlt]

/-- A repetition does not fail. -/
theorem result_manyDirect_ne_none (p : Parser α) (cursor : Cursor) :
    (manyDirect p cursor).result ≠ none := by
  induction hlength : cursor.rest.length using Nat.strongRecOn generalizing cursor with
  | ind length ih =>
    rw [result_manyDirect]
    split
    case h_1 => exact Option.some_ne_none _
    case h_2 value next _ =>
      split
      case isTrue hshorter =>
        intro hnone
        exact ih next.rest.length (hlength ▸ hshorter) next rfl (Option.map_eq_none_iff.1 hnone)
      case isFalse => exact Option.some_ne_none _

/-! ## Realizing -/

/-- On texts shorter than `n` the parser does what the pattern says, and the pairs fit the value. -/
structure Realizes (input : Text) (n : Nat) (p : Parser α) (mode : Mode) (pattern : Pattern Rule)
    (fits : α → Text → List (Pair Rule) → Prop) : Prop where
  gives : ∀ {cursor value next}, cursor.rest.length < n →
    (p cursor).result = some (value, next) → ∃ text pairs, cursor.rest = text ++ next.rest ∧
      Peg.Matches grammar input mode pattern cursor.rest (some (pairs, next.rest)) ∧
        fits value text pairs
  fails : ∀ {cursor}, cursor.rest.length < n → (p cursor).result = none →
    Peg.Matches grammar input mode pattern cursor.rest none

theorem Realizes.mono {fits' : α → Text → List (Pair Rule) → Prop}
    (h : Realizes input n p mode pattern fits)
    (hfits : ∀ value text pairs, fits value text pairs → fits' value text pairs) :
    Realizes input n p mode pattern fits' where
  gives hlt hresult := by
    obtain ⟨text, pairs, hrest, hmatches, hvalue⟩ := h.gives hlt hresult
    exact ⟨text, pairs, hrest, hmatches, hfits _ _ _ hvalue⟩
  fails := h.fails

theorem Realizes.map {fits' : β → Text → List (Pair Rule) → Prop} {f : α → β}
    (h : Realizes input n p mode pattern fits)
    (hfits : ∀ value text pairs, fits value text pairs → fits' (f value) text pairs) :
    Realizes input n (p >>= fun value => pure (f value)) mode pattern fits' where
  gives hlt hresult := by
    rw [result_bind] at hresult
    obtain ⟨⟨value, next⟩, hfirst, hpure⟩ := Option.bind_eq_some_iff.1 hresult
    cases hpure
    obtain ⟨text, pairs, hrest, hmatches, hvalue⟩ := h.gives hlt hfirst
    exact ⟨text, pairs, hrest, hmatches, hfits _ _ _ hvalue⟩
  fails hlt hresult := by
    rw [result_bind] at hresult
    refine h.fails hlt (Option.eq_none_iff_forall_ne_some.2 fun taken htaken => ?_)
    rw [htaken] at hresult
    cases hresult

/-! ## Characters -/

/-- A lexeme is told by its scanner. -/
theorem realizes_lexeme {scan : Text → Option (Text × Text)}
    {fits : Text → Text → List (Pair Rule) → Prop} (hsplits : Lexeme.Splits scan)
    (hsome : ∀ s taken rest, scan s = some (taken, rest) → ∃ pairs,
      Peg.Matches grammar input mode pattern s (some (pairs, rest)) ∧ fits taken taken pairs)
    (hnone : ∀ s, scan s = none → Peg.Matches grammar input mode pattern s none) :
    Realizes input n (lexeme scan) mode pattern fits where
  gives := by
    intro cursor value next _ hresult
    unfold lexeme at hresult
    split at hresult
    case h_1 taken rest hscan =>
      cases hresult
      obtain ⟨pairs, hmatches, htaken⟩ := hsome _ _ _ hscan
      exact ⟨_, pairs, hsplits _ _ _ hscan, hmatches, htaken⟩
    case h_2 => cases hresult
  fails := by
    intro cursor _ hresult
    unfold lexeme at hresult
    split at hresult
    case h_1 => cases hresult
    case h_2 hscan => exact hnone _ hscan

/-- A scanner does what a pattern without pairs says. -/
structure Scans (input : Text) (scan : Text → Option (Text × Text)) (mode : Mode)
    (pattern : Pattern Rule) : Prop where
  splits : Lexeme.Splits scan
  takes : ∀ s, Peg.Matches grammar input mode pattern s ((scan s).map fun taken => ([], taken.2))

theorem Scans.realizes {scan : Text → Option (Text × Text)} (h : Scans input scan mode pattern) :
    Realizes input n (lexeme scan) mode pattern fun value text pairs =>
      text = value ∧ pairs = [] ∧ ∃ s rest, scan s = some (value, rest) := by
  refine realizes_lexeme h.splits (fun s taken rest hscan => ?_) fun s hscan => ?_
  · have htakes := h.takes s
    rw [hscan] at htakes
    exact ⟨[], htakes, rfl, rfl, s, rest, hscan⟩
  · have htakes := h.takes s
    rw [hscan] at htakes
    exact htakes

theorem scans_scanText (expected : Text) :
    Scans input (scanText expected) mode (.text expected) where
  splits := Lexeme.splits_scanText expected
  takes := by
    intro s
    by_cases hprefix : expected <+: s
    · obtain ⟨rest, rfl⟩ := hprefix
      rw [scanText_eq_some_iff.2 ⟨rfl, rfl⟩]
      exact .text rfl
    · rw [scanText_eq_none hprefix]
      exact .text_fails hprefix

theorem realizes_exactly (expected : Text) :
    Realizes input n (exactly expected) mode (.text expected) fun value text pairs =>
      value = expected ∧ text = expected ∧ pairs = [] where
  gives _ hresult := by
    unfold exactly lexeme at hresult
    split at hresult
    case h_1 taken rest hscan =>
      cases hresult
      obtain ⟨htaken, hrest⟩ := scanText_eq_some_iff.1 hscan
      exact ⟨expected, [], hrest, .text hrest, htaken, rfl, rfl⟩
    case h_2 => cases hresult
  fails := (scans_scanText expected).realizes.fails

/-! ## Gaps -/

theorem matches_whitespace {c : Char} (hc : isGap c = true) (rest : Text) :
    Peg.Matches grammar input .spaced (.rule .whitespace) (c :: rest) (some ([], rest)) := by
  have hbody : Peg.Matches grammar input .spaced (Rule.body .whitespace) (c :: rest)
      (some ([], rest)) := by
    have hfails : ∀ d : Char, d ≠ c →
        Peg.Matches grammar input .spaced (.text [d]) (c :: rest) none :=
      fun d hd => .text_fails fun hprefix => hd (List.cons_prefix_cons.1 hprefix).1
    rw [isGap_iff] at hc
    simp only [List.mem_cons, List.not_mem_nil, or_false] at hc
    rcases hc with rfl | rfl | rfl | rfl
    · exact .choice_first (.text rfl)
    · exact .choice_second (hfails _ (by decide)) (.choice_first (.text rfl))
    · exact .choice_second (hfails _ (by decide)) (.choice_second (hfails _ (by decide))
        (.choice_first (.text rfl)))
    · exact .choice_second (hfails _ (by decide)) (.choice_second (hfails _ (by decide))
        (.choice_second (hfails _ (by decide)) (.text rfl)))
  exact .rule (show c :: rest = [c] ++ rest from rfl) hbody

theorem matches_whitespace_fails {s : Text} (h : ∀ c ∈ s.head?, isGap c = false) :
    Peg.Matches grammar input .spaced (.rule .whitespace) s none := by
  have hfails : ∀ d : Char, isGap d = true →
      Peg.Matches grammar input .spaced (.text [d]) s none := by
    intro d hd
    refine .text_fails fun hprefix => ?_
    obtain ⟨rest, rfl⟩ := hprefix
    rw [h d rfl] at hd
    cases hd
  exact .rule_fails (.choice_second (hfails ' ' rfl) (.choice_second (hfails '\t' rfl)
    (.choice_second (hfails '\r' rfl) (hfails '\n' rfl))))

/-- A gap is all that the parser skips. -/
theorem matches_gap (s : Text) :
    Peg.Matches grammar input .spaced .gap s (some ([], skipGap s)) := by
  refine .gap ?_
  induction s with
  | nil => exact .repeated_stop (matches_whitespace_fails (by simp))
  | cons c s ih =>
    by_cases hc : isGap c = true
    · rw [skipGap_cons_of_isGap hc]
      exact .repeated_next (matches_whitespace hc s) ih
    · have hstop : isGap c = false := by simpa using hc
      rw [skipGap_cons_of_not_isGap hstop]
      refine .repeated_stop (matches_whitespace_fails ?_)
      intro d hd
      cases hd
      exact hstop

theorem realizes_blanks : Realizes input n blanks .spaced .gap fun _ _ pairs => pairs = [] where
  gives := by
    intro cursor value next _ hresult
    cases hresult
    exact ⟨cursor.rest.takeWhile isGap, [], List.takeWhile_append_dropWhile.symm,
      matches_gap cursor.rest, rfl⟩
  fails := by
    intro cursor _ hresult
    cases hresult

/-! ## Sequences -/

/-- Behind a part there is less text. -/
theorem Realizes.gives_shorter {m : Nat} (h : Realizes input n p mode pattern fits)
    (hlength : ∀ value text pairs, fits value text pairs → n ≤ m + text.length)
    {cursor next : Cursor} {value : α} (hlt : cursor.rest.length < n) (hresult : (p cursor).result = some (value, next)) :
    ∃ text pairs, cursor.rest = text ++ next.rest ∧
      Peg.Matches grammar input mode pattern cursor.rest (some (pairs, next.rest)) ∧
        fits value text pairs ∧ next.rest.length < m := by
  obtain ⟨text, pairs, hrest, hmatches, hvalue⟩ := h.gives hlt hresult
  have hbound := hlength value text pairs hvalue
  have hsplit := congrArg List.length hrest
  rw [List.length_append] at hsplit
  exact ⟨text, pairs, hrest, hmatches, hvalue, by omega⟩

/-- What comes second is known to come behind what came first, and needs to realize its pattern
on the texts only that this leaves. -/
theorem Realizes.bind {m : Nat} {f : α → Parser β} {fits' : β → Text → List (Pair Rule) → Prop}
    (h : Realizes input n p mode pattern fits)
    (hlength : ∀ value text pairs, fits value text pairs → n ≤ m + text.length)
    (hnext : ∀ value text pairs, fits value text pairs →
      Realizes input m (f value) mode other fun last more others =>
        fits' last (text ++ more) (pairs ++ others)) :
    Realizes input n (p >>= f) mode (.seq pattern other) fits' where
  gives := by
    intro cursor last next hlt hresult
    rw [result_bind] at hresult
    obtain ⟨⟨value, middle⟩, hfirst, hresult⟩ := Option.bind_eq_some_iff.1 hresult
    obtain ⟨text, pairs, hrest, hmatches, hvalue, hshorter⟩ := h.gives_shorter hlength hlt hfirst
    obtain ⟨more, others, hmore, hothers, hlast⟩ :=
      (hnext value text pairs hvalue).gives hshorter hresult
    exact ⟨text ++ more, pairs ++ others, by rw [hrest, hmore, List.append_assoc],
      .seq hmatches hothers, hlast⟩
  fails := by
    intro cursor hlt hresult
    rw [result_bind] at hresult
    cases hfirst : (p cursor).result with
    | none => exact .seq_fails_first (h.fails hlt hfirst)
    | some taken =>
      obtain ⟨value, middle⟩ := taken
      rw [hfirst] at hresult
      obtain ⟨text, pairs, -, hmatches, hvalue, hshorter⟩ := h.gives_shorter hlength hlt hfirst
      exact .seq_fails_second hmatches ((hnext value text pairs hvalue).fails hshorter hresult)

/-- A part, a gap and what comes behind them. -/
theorem Realizes.andThen {f : α → Parser β} {fits' : β → Text → List (Pair Rule) → Prop}
    (h : Realizes input n p .spaced pattern fits)
    (hnext : ∀ value text pairs, fits value text pairs →
      Realizes input n (f value) .spaced other fun last more others =>
        ∀ gap, fits' last (text ++ (gap ++ more)) (pairs ++ others)) :
    Realizes input n (p >>= fun value => blanks >>= fun _ => f value) .spaced
      (.seq pattern (.seq .gap other)) fits' := by
  refine h.bind (fun _ _ _ _ => Nat.le_add_right n _) fun value text pairs hvalue => ?_
  refine realizes_blanks.bind (fun _ _ _ _ => Nat.le_add_right n _) fun _ gap none hnone => ?_
  refine (hnext value text pairs hvalue).mono fun last more others hlast => ?_
  rw [hnone]
  exact hlast gap

/-- Behind a sign there is less text, so that what comes there has to realize its pattern on
shorter texts only. -/
theorem Realizes.behind_sign {expected : Text} (hne : expected ≠ []) {q : Parser β}
    {fits' : β → Text → List (Pair Rule) → Prop}
    (h : Realizes input n q .spaced other fun last more others =>
      ∀ gap, fits' last (expected ++ (gap ++ more)) others) :
    Realizes input (n + 1) (exactly expected >>= fun _ => blanks >>= fun _ => q) .spaced
      (.seq (.text expected) (.seq .gap other)) fits' := by
  refine (realizes_exactly expected).bind (m := n) ?_ fun _ text pairs htaken => ?_
  · rintro _ text _ ⟨-, rfl, -⟩
    have hpos := List.length_pos_iff.2 hne
    omega
  · obtain ⟨-, rfl, rfl⟩ := htaken
    refine realizes_blanks.bind (fun _ _ _ _ => Nat.le_add_right n _) fun _ gap none hnone => ?_
    refine h.mono fun last more others hlast => ?_
    rw [hnone]
    exact hlast gap

/-! ## Choices -/

theorem Realizes.orElse (h : Realizes input n p mode pattern fits)
    (hother : Realizes input n q mode other fits) :
    Realizes input n (Parser.orElse p q) mode (.choice pattern other) fits where
  gives := by
    intro cursor value next hlt hresult
    rw [result_orElse] at hresult
    cases hfirst : (p cursor).result with
    | none =>
      rw [hfirst, Option.none_or] at hresult
      obtain ⟨text, pairs, hrest, hmatches, hvalue⟩ := hother.gives hlt hresult
      exact ⟨text, pairs, hrest, .choice_second (h.fails hlt hfirst) hmatches, hvalue⟩
    | some taken =>
      rw [hfirst, Option.some_or] at hresult
      cases hresult
      obtain ⟨text, pairs, hrest, hmatches, hvalue⟩ := h.gives hlt hfirst
      exact ⟨text, pairs, hrest, .choice_first hmatches, hvalue⟩
  fails := by
    intro cursor hlt hresult
    rw [result_orElse, Option.or_eq_none_iff] at hresult
    exact .choice_second (h.fails hlt hresult.1) (hother.fails hlt hresult.2)

theorem result_oneOf_last (p : Parser α) (cursor : Cursor) :
    (oneOf [p] cursor).result = (p cursor).result := by
  rw [oneOf, List.foldr_cons, result_orElse]
  exact Option.or_none

/-- The last one of several parsers. -/
theorem Realizes.oneOf_last (h : Realizes input n p mode pattern fits) :
    Realizes input n (oneOf [p]) mode pattern fits where
  gives := by
    intro cursor value next hlt hresult
    rw [result_oneOf_last] at hresult
    exact h.gives hlt hresult
  fails := by
    intro cursor hlt hresult
    rw [result_oneOf_last] at hresult
    exact h.fails hlt hresult

/-- One of several values, each of which has its own text. -/
theorem realizes_texts (name : α → Text) (first : α) (others : List α) :
    Realizes input n (oneOf ((first :: others).map fun value =>
        exactly (name value) >>= fun _ => pure value)) mode
      (Pattern.firstOf (.text (name first)) (others.map fun value => .text (name value)))
      fun value text pairs => text = name value ∧ value ∈ first :: others ∧ pairs = [] := by
  induction others generalizing first with
  | nil =>
    refine Realizes.oneOf_last ((realizes_exactly (name first)).map ?_)
    rintro _ text pairs ⟨-, rfl, rfl⟩
    exact ⟨rfl, List.mem_cons_self, rfl⟩
  | cons second others ih =>
    refine Realizes.orElse ((realizes_exactly (name first)).map ?_) ((ih second).mono ?_)
    · rintro _ text pairs ⟨-, rfl, rfl⟩
      exact ⟨rfl, List.mem_cons_self, rfl⟩
    · rintro value text pairs ⟨rfl, hmem, rfl⟩
      exact ⟨rfl, List.mem_cons_of_mem first hmem, rfl⟩

/-- A choice whose last alternative takes nothing. -/
theorem Realizes.orElse_succeed {missing : α} (h : Realizes input n p mode pattern fits)
    (hmissing : fits missing [] []) :
    Realizes input n (Parser.orElse p (succeed missing)) mode (.optional pattern) fits where
  gives := by
    intro cursor value next hlt hresult
    rw [result_orElse] at hresult
    cases hfirst : (p cursor).result with
    | none =>
      rw [hfirst, Option.none_or] at hresult
      cases hresult
      exact ⟨[], [], rfl, .optional_missing (h.fails hlt hfirst), hmissing⟩
    | some taken =>
      rw [hfirst, Option.some_or] at hresult
      cases hresult
      obtain ⟨text, pairs, hrest, hmatches, hvalue⟩ := h.gives hlt hfirst
      exact ⟨text, pairs, hrest, .optional_there hmatches, hvalue⟩
  fails := by
    intro cursor hlt hresult
    rw [result_orElse, Option.or_eq_none_iff] at hresult
    cases hresult.2

theorem Realizes.optional {fits' : Option α → Text → List (Pair Rule) → Prop}
    (h : Realizes input n p mode pattern fits)
    (hthere : ∀ value text pairs, fits value text pairs → fits' (some value) text pairs)
    (hmissing : fits' none [] []) :
    Realizes input n (Parser.optional p) mode (.optional pattern) fits' :=
  (h.map hthere).orElse_succeed hmissing

theorem Realizes.absent (h : Realizes input n p mode pattern fits) :
    Realizes input n (Parser.absent p) mode (.absent pattern) fun _ text pairs =>
      text = [] ∧ pairs = [] where
  gives := by
    intro cursor value next hlt hresult
    unfold Parser.absent at hresult
    split at hresult
    case h_1 => cases hresult
    case h_2 hnone =>
      cases hresult
      exact ⟨[], [], rfl, .absent (h.fails hlt hnone), rfl, rfl⟩
  fails := by
    intro cursor hlt hresult
    unfold Parser.absent at hresult
    split at hresult
    case h_1 taken htaken =>
      obtain ⟨text, pairs, -, hmatches, -⟩ := h.gives hlt htaken
      exact .absent_fails hmatches
    case h_2 => cases hresult

/-! ## Repetition -/

/-- The pairs of several parts are those of the parts, one after another. -/
inductive FitsAll (fits : α → Text → List (Pair Rule) → Prop) : List α → List (Pair Rule) → Prop
  | nil : FitsAll fits [] []
  | cons {value text pairs values others} (h : fits value text pairs)
      (hothers : FitsAll fits values others) : FitsAll fits (value :: values) (pairs ++ others)

theorem FitsAll.mono {fits' : α → Text → List (Pair Rule) → Prop} {values : List α}
    {pairs : List (Pair Rule)} (h : FitsAll fits values pairs)
    (hfits : ∀ value text pairs, fits value text pairs → fits' value text pairs) :
    FitsAll fits' values pairs := by
  induction h with
  | nil => exact .nil
  | cons h _ ih => exact .cons (hfits _ _ _ h) ih

theorem Realizes.manyDirect (h : Realizes input n p mode pattern fits)
    (hne : ∀ value text pairs, fits value text pairs → text ≠ []) :
    Realizes input n (Parser.manyDirect p) mode (.repeated pattern) fun values _ pairs =>
      FitsAll fits values pairs where
  gives := by
    intro cursor
    induction hlength : cursor.rest.length using Nat.strongRecOn generalizing cursor with
    | ind length ih =>
      intro values last hlt hresult
      rw [result_manyDirect] at hresult
      cases hfirst : (p cursor).result with
      | none =>
        rw [hfirst] at hresult
        cases hresult
        exact ⟨[], [], rfl, .repeated_stop (h.fails (hlength ▸ hlt) hfirst), .nil⟩
      | some taken =>
        obtain ⟨value, next⟩ := taken
        obtain ⟨text, pairs, hrest, hmatches, hvalue⟩ := h.gives (hlength ▸ hlt) hfirst
        have hpos := List.length_pos_iff.2 (hne value text pairs hvalue)
        have hshorter : next.rest.length < cursor.rest.length := by
          rw [hrest, List.length_append]
          omega
        simp only [hfirst, hshorter, if_true] at hresult
        obtain ⟨⟨later, last⟩, hlater, hpair⟩ := Option.map_eq_some_iff.1 hresult
        cases hpair
        obtain ⟨more, others, hmore, hothers, hvalues⟩ :=
          ih next.rest.length (by omega) rfl (by omega) hlater
        exact ⟨text ++ more, pairs ++ others, by rw [hrest, hmore, List.append_assoc],
          .repeated_next hmatches hothers, .cons hvalue hvalues⟩
  fails := by
    intro cursor _ hresult
    exact absurd hresult (result_manyDirect_ne_none p cursor)

/-- As many parts as there are, none of which is empty. -/
theorem Realizes.many (h : Realizes input n p .spaced pattern fits)
    (hne : ∀ value text pairs, fits value text pairs → text ≠ []) :
    Realizes input n (Parser.many p) .spaced (Pattern.many pattern) fun values _ pairs =>
      FitsAll fits values pairs := by
  have hbehind : Realizes input n (blanks >>= fun _ => p) .spaced (.seq .gap pattern)
      fun value text pairs => ∃ gap more, text = gap ++ more ∧ fits value more pairs := by
    refine realizes_blanks.bind (fun _ _ _ _ => Nat.le_add_right n _) fun _ gap none hnone => ?_
    refine h.mono fun value more pairs hvalue => ⟨gap, more, rfl, ?_⟩
    rw [hnone]
    exact hvalue
  have hothers := hbehind.manyDirect fun value text pairs hvalue => by
    obtain ⟨gap, more, rfl, hmore⟩ := hvalue
    simp [hne value more pairs hmore]
  have hall : ∀ {values pairs}, FitsAll (fun value text pairs =>
      ∃ gap more, text = gap ++ more ∧ fits value more pairs) values pairs →
        FitsAll fits values pairs := by
    intro values pairs hvalues
    induction hvalues with
    | nil => exact .nil
    | cons hvalue _ ih =>
      obtain ⟨gap, more, -, hmore⟩ := hvalue
      exact .cons hmore ih
  refine Realizes.orElse_succeed ?_ .nil
  refine h.bind (fun _ _ _ _ => Nat.le_add_right n _) fun first text pairs hfirst => ?_
  exact hothers.map fun values more others hvalues => .cons hfirst (hall hvalues)

/-! ## Rules -/

/-- A rule with a pair of its own gives this one pair. -/
theorem Realizes.rule (name : Rule) (hmodifier : name.modifier ≠ .silent)
    (h : Realizes input n p (name.modifier.inside .spaced) name.body fits) :
    Realizes input n (Parser.rule p) .spaced (.rule name) fun value text pairs =>
      ∃ inner, pairs = [.node name text inner] ∧ fits value text inner where
  gives := by
    intro cursor value next hlt hresult
    rw [result_rule] at hresult
    obtain ⟨text, inner, hrest, hmatches, hvalue⟩ := h.gives hlt hresult
    have hpairs : name.modifier.pairs .spaced name text inner = [.node name text inner] := by
      cases hcase : name.modifier with
      | silent => exact absurd hcase hmodifier
      | compound => rfl
      | normal | atomic => rfl
    refine ⟨text, _, hrest, .rule hrest hmatches, inner, hpairs, hvalue⟩
  fails := by
    intro cursor hlt hresult
    rw [result_rule] at hresult
    exact .rule_fails (h.fails hlt hresult)

end TreeSelect.XPath.Parser
