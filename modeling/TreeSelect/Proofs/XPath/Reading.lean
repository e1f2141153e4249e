import TreeSelect.XPath.Parser

/-!
# What a parser reads

`p.Reads s value rest` says that the parser takes a beginning of the text `s`, gives `value` and
leaves `rest`, wherever the text stands; `p.Refuses s` says that it fails on `s`.  Since the choice
is ordered, an alternative is taken only where all alternatives before it refuse, so that the two
are needed side by side.

There is one lemma of each kind for each combinator.  The offsets and the furthest failures that a
parser also reports are left out of both relations.
-/

namespace TreeSelect.XPath.Parser

variable {α β : Type}

/-- The parser reads `value` from the beginning of `s` and leaves `rest`. -/
def Reads (parser : Parser α) (s : Text) (value : α) (rest : Text) : Prop :=
  ∀ offset, ∃ next furthest, parser ⟨offset, s⟩ = ⟨some (value, ⟨next, rest⟩), furthest⟩

/-- The parser fails on `s`. -/
def Refuses (parser : Parser α) (s : Text) : Prop :=
  ∀ offset, ∃ furthest, parser ⟨offset, s⟩ = ⟨none, furthest⟩

/-! ## Sequences -/

theorem reads_pure (value : α) (s : Text) : (pure value : Parser α).Reads s value s :=
  fun offset => ⟨offset, 0, rfl⟩

theorem Reads.bind {first : Parser α} {next : α → Parser β} {s middle rest : Text} {a : α} {b : β}
    (hfirst : first.Reads s a middle) (hnext : (next a).Reads middle b rest) :
    (first >>= next).Reads s b rest := by
  intro offset
  obtain ⟨place, furthest, hfirst⟩ := hfirst offset
  obtain ⟨last, others, hnext⟩ := hnext place
  refine ⟨last, max furthest others, ?_⟩
  show andThen first next _ = _
  rw [andThen, hfirst]
  simp only [hnext]

theorem Refuses.bind {first : Parser α} {s : Text} (hfirst : first.Refuses s)
    (next : α → Parser β) : (first >>= next).Refuses s := by
  intro offset
  obtain ⟨furthest, hfirst⟩ := hfirst offset
  refine ⟨furthest, ?_⟩
  show andThen first next _ = _
  rw [andThen, hfirst]

theorem Reads.bind_refuses {first : Parser α} {next : α → Parser β} {s middle : Text} {a : α}
    (hfirst : first.Reads s a middle) (hnext : (next a).Refuses middle) :
    (first >>= next).Refuses s := by
  intro offset
  obtain ⟨place, furthest, hfirst⟩ := hfirst offset
  obtain ⟨others, hnext⟩ := hnext place
  refine ⟨max furthest others, ?_⟩
  show andThen first next _ = _
  rw [andThen, hfirst]
  simp only [hnext]

/-! ## Choice -/

theorem Reads.orElse {first : Parser α} {s rest : Text} {a : α} (hfirst : first.Reads s a rest)
    (second : Parser α) : (Parser.orElse first second).Reads s a rest := by
  intro offset
  obtain ⟨place, furthest, hfirst⟩ := hfirst offset
  exact ⟨place, furthest, by rw [Parser.orElse, hfirst]⟩

theorem Refuses.orElse_reads {first second : Parser α} {s rest : Text} {a : α}
    (hfirst : first.Refuses s) (hsecond : second.Reads s a rest) :
    (Parser.orElse first second).Reads s a rest := by
  intro offset
  obtain ⟨furthest, hfirst⟩ := hfirst offset
  obtain ⟨place, others, hsecond⟩ := hsecond offset
  refine ⟨place, max furthest others, ?_⟩
  rw [Parser.orElse, hfirst]
  simp only [hsecond]

theorem Refuses.orElse {first second : Parser α} {s : Text} (hfirst : first.Refuses s)
    (hsecond : second.Refuses s) : (Parser.orElse first second).Refuses s := by
  intro offset
  obtain ⟨furthest, hfirst⟩ := hfirst offset
  obtain ⟨others, hsecond⟩ := hsecond offset
  refine ⟨max furthest others, ?_⟩
  rw [Parser.orElse, hfirst]
  simp only [hsecond]

theorem reads_oneOf_cons {first : Parser α} {s rest : Text} {a : α}
    (hfirst : first.Reads s a rest) (others : List (Parser α)) :
    (oneOf (first :: others)).Reads s a rest :=
  hfirst.orElse _

theorem Refuses.oneOf_cons_reads {first : Parser α} {others : List (Parser α)} {s rest : Text}
    {a : α} (hfirst : first.Refuses s) (hothers : (oneOf others).Reads s a rest) :
    (oneOf (first :: others)).Reads s a rest :=
  hfirst.orElse_reads hothers

theorem refuses_oneOf {parsers : List (Parser α)} {s : Text}
    (h : ∀ parser ∈ parsers, parser.Refuses s) : (oneOf parsers).Refuses s := by
  induction parsers with
  | nil => exact fun _ => ⟨0, rfl⟩
  | cons first others ih =>
    exact (h first List.mem_cons_self).orElse
      (ih fun parser hparser => h parser (List.mem_cons_of_mem _ hparser))

theorem Reads.optional {parser : Parser α} {s rest : Text} {a : α} (h : parser.Reads s a rest) :
    (Parser.optional parser).Reads s (some a) rest :=
  (h.bind (reads_pure (some a) rest)).orElse _

theorem Refuses.optional {parser : Parser α} {s : Text} (h : parser.Refuses s) :
    (Parser.optional parser).Reads s none s :=
  (h.bind _).orElse_reads (reads_pure none s)

theorem Refuses.absent {parser : Parser α} {s : Text} (h : parser.Refuses s) :
    (Parser.absent parser).Reads s () s := by
  intro offset
  obtain ⟨furthest, h⟩ := h offset
  exact ⟨offset, 0, by rw [Parser.absent, h]⟩

/-! ## Rules and lexemes -/

theorem Reads.rule {parser : Parser α} {s rest : Text} {a : α} (h : parser.Reads s a rest) :
    (Parser.rule parser).Reads s a rest := by
  intro offset
  obtain ⟨place, furthest, h⟩ := h offset
  exact ⟨place, furthest, by rw [Parser.rule, h]⟩

theorem Refuses.rule {parser : Parser α} {s : Text} (h : parser.Refuses s) :
    (Parser.rule parser).Refuses s := by
  intro offset
  obtain ⟨furthest, h⟩ := h offset
  exact ⟨max offset furthest, by rw [Parser.rule, h]⟩

theorem reads_lexeme {scan : Text → Option (Text × Text)} {s taken rest : Text}
    (h : scan s = some (taken, rest)) : (lexeme scan).Reads s taken rest := by
  intro offset
  exact ⟨offset + taken.bytes, 0, by simp only [lexeme, h]⟩

theorem refuses_lexeme {scan : Text → Option (Text × Text)} {s : Text} (h : scan s = none) :
    (lexeme scan).Refuses s := by
  intro offset
  exact ⟨0, by simp only [lexeme, h]⟩

theorem scanText_eq_some_iff {expected s taken rest : Text} :
    scanText expected s = some (taken, rest) ↔ taken = expected ∧ s = expected ++ rest := by
  unfold scanText
  split
  case isTrue h =>
    obtain ⟨after, rfl⟩ := List.isPrefixOf_iff_prefix.1 h
    rw [List.drop_left]
    constructor
    · intro heq
      cases heq
      exact ⟨rfl, rfl⟩
    · intro hcase
      rcases hcase with ⟨rfl, hrest⟩
      rw [List.append_cancel_left hrest]
  case isFalse h =>
    constructor
    · intro heq
      cases heq
    · intro hcase
      rcases hcase with ⟨rfl, rfl⟩
      exact absurd (List.isPrefixOf_iff_prefix.2 (List.prefix_append taken rest)) h

theorem scanText_eq_none {expected s : Text} (h : ¬ expected <+: s) :
    scanText expected s = none := by
  have hprefix : ¬ expected.isPrefixOf s = true := fun hp => h (List.isPrefixOf_iff_prefix.1 hp)
  rw [scanText, if_neg hprefix]

theorem reads_exactly (expected rest : Text) :
    (exactly expected).Reads (expected ++ rest) expected rest :=
  reads_lexeme (scanText_eq_some_iff.2 ⟨rfl, rfl⟩)

theorem refuses_exactly {expected s : Text} (h : ¬ expected <+: s) : (exactly expected).Refuses s :=
  refuses_lexeme (scanText_eq_none h)

/-- In a choice between fixed texts, one of them is read if none before it begins the text. -/
theorem reads_choice (earlier : List (Text × α)) (choice : Text × α) (later : List (Text × α))
    {rest : Text} (h : ∀ other ∈ earlier, ¬ other.1 <+: choice.1 ++ rest) :
    (oneOf ((earlier ++ choice :: later).map fun choice => do
      let _ ← exactly choice.1
      return choice.2)).Reads (choice.1 ++ rest) choice.2 rest := by
  induction earlier with
  | nil =>
    exact reads_oneOf_cons ((reads_exactly choice.1 rest).bind (reads_pure choice.2 rest)) _
  | cons other earlier ih =>
    have hother := refuses_exactly (h other List.mem_cons_self)
    exact (hother.bind _).oneOf_cons_reads (ih fun o ho => h o (List.mem_cons_of_mem other ho))

/-! ## Blanks -/

/-- The text from its first character that is no gap. -/
def skipGap (s : Text) : Text := s.dropWhile isGap

theorem reads_blanks (s : Text) : blanks.Reads s () (skipGap s) :=
  fun _ => ⟨_, 0, rfl⟩

theorem isGap_iff {c : Char} : isGap c = true ↔ c ∈ [' ', '\t', '\r', '\n'] := by
  simp [isGap, or_assoc]

theorem skipGap_cons_of_isGap {c : Char} {s : Text} (h : isGap c = true) :
    skipGap (c :: s) = skipGap s := by
  rw [skipGap, List.dropWhile_cons_of_pos h, skipGap]

theorem skipGap_cons_of_not_isGap {c : Char} {s : Text} (h : isGap c = false) :
    skipGap (c :: s) = c :: s := by
  rw [skipGap, List.dropWhile_cons_of_neg (by simp [h])]

/-- A text begins with a gap, or as it does without its gap. -/
theorem isGap_or_mem_skipGap {s : Text} :
    ∀ c ∈ s.head?, isGap c = true ∨ c ∈ (skipGap s).head? := by
  intro c hc
  cases s with
  | nil => cases hc
  | cons d s =>
    cases hc
    by_cases hgap : isGap c = true
    · exact .inl hgap
    · rw [skipGap_cons_of_not_isGap (by simpa using hgap)]
      exact .inr rfl

theorem skipGap_append_of_isGap {gap : Text} (h : ∀ c ∈ gap, isGap c = true) (s : Text) :
    skipGap (gap ++ s) = skipGap s :=
  List.dropWhile_append_of_pos h

@[simp] theorem skipGap_skipGap (s : Text) : skipGap (skipGap s) = skipGap s := by
  induction s with
  | nil => rfl
  | cons c s ih =>
    cases h : isGap c with
    | false => rw [skipGap_cons_of_not_isGap h, skipGap_cons_of_not_isGap h]
    | true => rw [skipGap_cons_of_isGap h, ih]

theorem length_skipGap_le (s : Text) : (skipGap s).length ≤ s.length :=
  (List.dropWhile_suffix _).length_le

/-- The parser reads `value` and leaves `rest`, from whose beginning it may have taken the gap. -/
def ReadsUpTo (parser : Parser α) (s : Text) (value : α) (rest : Text) : Prop :=
  ∃ left, (left = rest ∨ left = skipGap rest) ∧ parser.Reads s value left

theorem Reads.upTo {parser : Parser α} {s rest : Text} {a : α} (h : parser.Reads s a rest) :
    parser.ReadsUpTo s a rest :=
  ⟨rest, .inl rfl, h⟩

/-- Behind blanks it does not matter whether the gap has been taken before. -/
theorem ReadsUpTo.bind_blanks {first : Parser α} {next : α → Parser β} {s rest last : Text} {a : α}
    {b : β} (h : first.ReadsUpTo s a rest) (hnext : (next a).Reads (skipGap rest) b last) :
    (first >>= fun a => blanks >>= fun _ => next a).Reads s b last := by
  obtain ⟨left, hleft, h⟩ := h
  have hgap : skipGap left = skipGap rest := by
    rcases hleft with rfl | rfl
    · rfl
    · exact skipGap_skipGap rest
  refine h.bind ((reads_blanks left).bind ?_)
  rw [hgap]
  exact hnext

theorem ReadsUpTo.bind_blanks_upTo {first : Parser α} {next : α → Parser β} {s rest last : Text}
    {a : α} {b : β} (h : first.ReadsUpTo s a rest)
    (hnext : (next a).ReadsUpTo (skipGap rest) b last) :
    (first >>= fun a => blanks >>= fun _ => next a).ReadsUpTo s b last := by
  obtain ⟨left, hleft, hnext⟩ := hnext
  exact ⟨left, hleft, h.bind_blanks hnext⟩

theorem Reads.bind_upTo {first : Parser α} {next : α → Parser β} {s middle rest : Text} {a : α}
    {b : β} (h : first.Reads s a middle) (hnext : (next a).ReadsUpTo middle b rest) :
    (first >>= next).ReadsUpTo s b rest := by
  obtain ⟨left, hleft, hnext⟩ := hnext
  exact ⟨left, hleft, h.bind hnext⟩

theorem ReadsUpTo.bind_pure {parser : Parser α} {s rest : Text} {a : α} (f : α → β)
    (h : parser.ReadsUpTo s a rest) : (parser >>= fun a => pure (f a)).ReadsUpTo s (f a) rest := by
  obtain ⟨left, hleft, h⟩ := h
  exact ⟨left, hleft, h.bind (reads_pure (f a) left)⟩

theorem ReadsUpTo.orElse {first : Parser α} {s rest : Text} {a : α} (h : first.ReadsUpTo s a rest)
    (second : Parser α) : (Parser.orElse first second).ReadsUpTo s a rest := by
  obtain ⟨left, hleft, h⟩ := h
  exact ⟨left, hleft, h.orElse second⟩

theorem Refuses.orElse_readsUpTo {first second : Parser α} {s rest : Text} {a : α}
    (hfirst : first.Refuses s) (hsecond : second.ReadsUpTo s a rest) :
    (Parser.orElse first second).ReadsUpTo s a rest := by
  obtain ⟨left, hleft, hsecond⟩ := hsecond
  exact ⟨left, hleft, hfirst.orElse_reads hsecond⟩

theorem ReadsUpTo.optional {parser : Parser α} {s rest : Text} {a : α}
    (h : parser.ReadsUpTo s a rest) : (Parser.optional parser).ReadsUpTo s (some a) rest := by
  obtain ⟨left, hleft, h⟩ := h
  exact ⟨left, hleft, h.optional⟩

theorem ReadsUpTo.rule {parser : Parser α} {s rest : Text} {a : α}
    (h : parser.ReadsUpTo s a rest) : (Parser.rule parser).ReadsUpTo s a rest := by
  obtain ⟨left, hleft, h⟩ := h
  exact ⟨left, hleft, h.rule⟩

/-! ## Repetition -/

/-- `Repeats parser s values rest`: one part after another, each of them not empty and with blanks
before it, gives `values`, and the parser refuses what is left. -/
inductive Repeats (parser : Parser α) : Text → List α → Text → Prop
  | stop {s} (h : parser.Refuses (skipGap s)) : Repeats parser s [] s
  | next {s a middle values rest} (h : parser.Reads (skipGap s) a middle)
      (hlt : middle.length < s.length) (hrest : Repeats parser middle values rest) :
      Repeats parser s (a :: values) rest

theorem reads_manyDirect {parser : Parser α} {s rest : Text} {values : List α}
    (h : Repeats parser s values rest) :
    Reads (manyDirect (do blanks; parser)) s values rest := by
  induction h with
  | @stop s h =>
    intro offset
    have hrefuses : Refuses (do blanks; parser) s := (reads_blanks s).bind_refuses h
    obtain ⟨furthest, h⟩ := hrefuses offset
    refine ⟨offset, furthest, ?_⟩
    rw [manyDirect, h]
  | @next s a middle _ _ h hlt _ ih =>
    intro offset
    have hreads : Reads (do blanks; parser) s a middle := (reads_blanks s).bind h
    obtain ⟨place, furthest, h⟩ := hreads offset
    obtain ⟨last, others, ih⟩ := ih place
    refine ⟨last, max furthest others, ?_⟩
    rw [manyDirect, h]
    simp only [dif_pos hlt, ih]

/-- The repetition has no blanks before its first part. -/
theorem reads_many {parser : Parser α} {s rest : Text} {values : List α}
    (h : Repeats parser s values rest) (hs : skipGap s = s) :
    (Parser.many parser).Reads s values rest := by
  cases h with
  | stop h =>
    rw [hs] at h
    exact (h.bind _).orElse_reads (reads_pure [] s)
  | @next _ a _ values _ h _ hrest =>
    rw [hs] at h
    exact (h.bind ((reads_manyDirect hrest).bind (reads_pure (a :: values) rest))).orElse _

end TreeSelect.XPath.Parser
