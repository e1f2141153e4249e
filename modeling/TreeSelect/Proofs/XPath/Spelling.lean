import TreeSelect.Proofs.XPath.Results

/-!
# Reading spelled tokens

`Takes p ts a follow` says that the parser takes the spelling of the tokens `ts` and gives `a`,
whatever tokens come behind, as long as they may (`follow`).  It says nothing of the texts: between
any two tokens there is a gap, so that neither can change what the other is taken for.

There is one lemma for each combinator.  `Takes.many` is about a first part and further parts, each
of which begins with one of some signs.
-/

namespace TreeSelect.XPath

open TreeSelect.XPath.Parser TreeSelect.XPath.Lexeme

/-! ## Tokens -/

/-- No spelling of the token begins with one of these characters. -/
def Token.Avoids (signs : List Char) (token : Token) : Prop :=
  ∀ s, token.Spells s → XPath.Avoids signs s

theorem avoids_fixed {signs : List Char} {text : Text} (h : Avoids signs text) :
    (Token.fixed text).Avoids signs := by
  intro s hs
  rw [hs.1]
  exact h

theorem avoids_number {signs : List Char} (h : ∀ c ∈ signs, c.isDigit = false ∧ c ≠ '.')
    (value : Number) : (Token.number value).Avoids signs := by
  intro s hs c hc hmem
  obtain ⟨hdigit, hpoint⟩ := h c hmem
  rcases (of_scanNumber hs.1).1.chars c (List.mem_of_mem_head? hc) with hcase | hcase
  · rw [hdigit] at hcase
    cases hcase
  · exact hpoint hcase

theorem avoids_literal {signs : List Char} (h : '"' ∉ signs ∧ '\'' ∉ signs) (value : Text) :
    (Token.literal value).Avoids signs := by
  intro s hs
  obtain ⟨mark, hmark, -, rfl⟩ := hs
  refine avoids_cons ?_ _
  rcases hmark with rfl | rfl
  · exact h.1
  · exact h.2

/-- The spelling of a token begins with no gap. -/
theorem Token.Spells.starts {token : Token} {s : Text} (h : token.Spells s) :
    ∃ c rest, s = c :: rest ∧ isGap c = false := by
  cases token with
  | fixed text =>
    obtain ⟨rfl, hne, hgap⟩ := h
    obtain ⟨c, rest, rfl⟩ := List.exists_cons_of_ne_nil hne
    exact ⟨c, rest, rfl, hgap c List.mem_cons_self⟩
  | number value =>
    cases s with
    | nil => cases h.1
    | cons c rest =>
      have hgaps : ∀ d ∈ [' ', '\t', '\r', '\n'], d.isDigit = false ∧ d ≠ '.' := by decide
      have havoids := avoids_number hgaps value _ h c rfl
      exact ⟨c, rest, rfl, Bool.eq_false_iff.2 fun hgap => havoids (isGap_iff.1 hgap)⟩
  | literal value =>
    obtain ⟨mark, hmark, -, rfl⟩ := h
    refine ⟨mark, value ++ [mark], rfl, ?_⟩
    rcases hmark with rfl | rfl <;> decide

/-! ## Spelled tokens -/

theorem Spelled.skipGap {tokens : List Token} {s : Text} (h : Spelled tokens s) :
    Spelled tokens (skipGap s) := by
  cases tokens with
  | nil =>
    intro c hc
    exact h c ((List.dropWhile_suffix _).subset hc)
  | cons token tokens =>
    obtain ⟨gap, spelled, rest, rfl, hgap, hspells, hhead, hrest⟩ := h
    obtain ⟨c, more, rfl, hc⟩ := hspells.starts
    refine ⟨[], c :: more, rest, ?_, by simp, hspells, hhead, hrest⟩
    rw [List.append_assoc, skipGap_append_of_isGap hgap, List.cons_append,
      skipGap_cons_of_not_isGap hc]
    rfl

/-- Behind its gap a text begins with the spelling of the first token. -/
theorem Spelled.first {token : Token} {tokens : List Token} {s : Text}
    (h : Spelled (token :: tokens) s) (hs : Parser.skipGap s = s) :
    ∃ spelled rest, s = spelled ++ rest ∧ token.Spells spelled ∧
      (∀ c ∈ rest.head?, isGap c = true) ∧ Spelled tokens rest ∧ rest.length < s.length := by
  obtain ⟨gap, spelled, rest, rfl, hgap, hspells, hhead, hrest⟩ := h
  obtain ⟨c, more, rfl, hc⟩ := hspells.starts
  rw [List.append_assoc, List.cons_append] at hs ⊢
  rw [skipGap_append_of_isGap hgap, skipGap_cons_of_not_isGap hc] at hs
  rw [← hs]
  refine ⟨c :: more, rest, rfl, hspells, hhead, hrest, ?_⟩
  rw [List.length_cons, List.length_append]
  omega

theorem Spelled.avoids {token : Token} {tokens : List Token} {s : Text} {signs : List Char}
    (h : Spelled (token :: tokens) s) (hs : Parser.skipGap s = s) (htoken : token.Avoids signs) :
    Avoids signs s := by
  obtain ⟨spelled, rest, rfl, hspells, -⟩ := h.first hs
  obtain ⟨c, more, rfl, -⟩ := hspells.starts
  exact fun d hd => htoken _ hspells d hd

theorem Spelled.eq_nil {s : Text} (h : Spelled [] s) (hs : Parser.skipGap s = s) : s = [] := by
  rw [← hs]
  exact List.dropWhile_eq_nil_iff.2 h

/-! ## What may come behind -/

/-- Either no token comes behind, or one of these signs. -/
def Followed (signs : List Text) (tokens : List Token) : Prop :=
  ∀ token ∈ tokens.head?, ∃ sign ∈ signs, token = .fixed sign

/-- Any tokens may come behind. -/
def Anyhow (_ : List Token) : Prop := True

theorem followed_cons {signs : List Text} {sign : Text} (h : sign ∈ signs) (tokens : List Token) :
    Followed signs (.fixed sign :: tokens) := by
  intro token htoken
  cases htoken
  exact ⟨sign, h, rfl⟩

theorem Followed.mono {signs more : List Text} {tokens : List Token} (h : Followed signs tokens)
    (hsub : signs ⊆ more) : Followed more tokens := by
  intro token htoken
  obtain ⟨sign, hsign, rfl⟩ := h token htoken
  exact ⟨sign, hsub hsign, rfl⟩

/-- What is spelled behind begins as its signs do. -/
theorem Followed.avoids {signs : List Text} {tokens : List Token} {chars : List Char} {s : Text}
    (h : Followed signs tokens) (hs : Spelled tokens s) (hgap : skipGap s = s)
    (hsigns : ∀ sign ∈ signs, Avoids chars sign) : Avoids chars s := by
  cases tokens with
  | nil =>
    rw [hs.eq_nil hgap]
    exact avoids_nil chars
  | cons token tokens =>
    obtain ⟨sign, hsign, rfl⟩ := h token rfl
    exact hs.avoids hgap (avoids_fixed (hsigns sign hsign))

namespace Parser

variable {α β γ δ : Type} {p q : Parser α} {ts us : List Token} {a : α} {b : β}
  {follow after : List Token → Prop}

/-! ## Parsers on tokens -/

/-- The parser takes the tokens and gives the value, where what comes behind may. -/
def Takes (p : Parser α) (ts : List Token) (a : α) (follow : List Token → Prop) : Prop :=
  ∀ more s, follow more → Spelled (ts ++ more) s → skipGap s = s →
    ∃ left, p.Reads s a left ∧ Spelled more left ∧ left.length < s.length

/-- The parser fails where the tokens begin the text. -/
def Balks (p : Parser α) (ts : List Token) : Prop :=
  ∀ more s, Spelled (ts ++ more) s → skipGap s = s → p.Refuses s

theorem Takes.mono (h : Takes p ts a follow) (himp : ∀ more, after more → follow more) :
    Takes p ts a after :=
  fun more s hmore => h more s (himp more hmore)

theorem Takes.anyhow (h : Takes p ts a Anyhow) : Takes p ts a follow := h.mono fun _ _ => trivial

/-- A lexeme is a token, if the scanner takes each of its spellings before a gap. -/
theorem takes_token {scan : Text → Option (Text × Text)} {token : Token} (f : Text → β)
    (h : ∀ s rest, token.Spells s → (∀ c ∈ rest.head?, isGap c = true) →
      scan (s ++ rest) = some (s, rest) ∧ f s = b) :
    Takes (Grammar.token scan >>= fun taken => pure (f taken)) [token] b Anyhow := by
  intro more s _ hs hgap
  obtain ⟨spelled, rest, rfl, hspells, hhead, hrest⟩ := hs.first hgap
  obtain ⟨hscan, rfl⟩ := h spelled rest hspells hhead
  exact ⟨rest, (reads_lexeme hscan).rule.bind (reads_pure (f spelled) rest), hrest⟩

/-- A fixed text is a token of its own, if the scanner takes it before a gap. -/
theorem takes_fixed {scan : Text → Option (Text × Text)} {text : Text}
    (h : ∀ rest, (∀ c ∈ rest.head?, isGap c = true) → scan (text ++ rest) = some (text, rest)) :
    Takes (lexeme scan) [.fixed text] text Anyhow := by
  intro more s _ hs hgap
  obtain ⟨spelled, rest, rfl, ⟨rfl, -⟩, hhead, hrest⟩ := hs.first hgap
  exact ⟨rest, reads_lexeme (h rest hhead), hrest⟩

theorem takes_exactly (text : Text) : Takes (exactly text) [.fixed text] text Anyhow :=
  takes_fixed fun _ _ => scanText_eq_some_iff.2 ⟨rfl, rfl⟩

/-- In a choice between fixed texts none may begin one that is tried after it. -/
theorem takes_choice (choices : List (Text × α))
    (horder : choices.Pairwise fun first second => ¬ first.1 <+: second.1)
    (hgaps : ∀ choice ∈ choices, ∀ c ∈ choice.1, isGap c = false) {choice : Text × α}
    (h : choice ∈ choices) :
    Takes (oneOf (choices.map fun choice => do let _ ← exactly choice.1; return choice.2))
      [.fixed choice.1] choice.2 Anyhow := by
  intro more s _ hs hgap
  obtain ⟨spelled, rest, rfl, ⟨rfl, -⟩, hhead, hrest⟩ := hs.first hgap
  obtain ⟨earlier, later, rfl⟩ := List.append_of_mem h
  have hearlier : ∀ other ∈ earlier, ¬ other.1 <+: choice.1 ++ rest := by
    intro other hother hprefix
    exact (List.pairwise_append.1 horder).2.2 other hother choice List.mem_cons_self
      (prefix_of_head (hgaps other (List.mem_append_left _ hother)) hhead hprefix)
  exact ⟨rest, reads_choice earlier choice later hearlier, hrest⟩

theorem Takes.rule (h : Takes p ts a follow) : Takes (Parser.rule p) ts a follow := by
  intro more s hmore hs hgap
  obtain ⟨left, hreads, hleft⟩ := h more s hmore hs hgap
  exact ⟨left, hreads.rule, hleft⟩

theorem Takes.optional (h : Takes p ts a follow) :
    Takes (Parser.optional p) ts (some a) follow := by
  intro more s hmore hs hgap
  obtain ⟨left, hreads, hleft⟩ := h more s hmore hs hgap
  exact ⟨left, hreads.optional, hleft⟩

theorem Takes.bind_pure (h : Takes p ts a follow) (f : α → β) :
    Takes (p >>= fun a => pure (f a)) ts (f a) follow := by
  intro more s hmore hs hgap
  obtain ⟨left, hreads, hleft⟩ := h more s hmore hs hgap
  exact ⟨left, hreads.bind (reads_pure (f a) left), hleft⟩

/-- One part behind another, with blanks between them. -/
theorem Takes.bind_blanks {f : α → Parser β} (h : Takes p ts a after)
    (hnext : Takes (f a) us b follow) (hafter : ∀ more, follow more → after (us ++ more)) :
    Takes (p >>= fun a => blanks >>= fun _ => f a) (ts ++ us) b follow := by
  intro more s hmore hs hgap
  rw [List.append_assoc] at hs
  obtain ⟨middle, hfirst, hmiddle, hlt⟩ := h _ s (hafter more hmore) hs hgap
  obtain ⟨left, hlast, hleft, hshorter⟩ :=
    hnext more _ hmore hmiddle.skipGap (skipGap_skipGap middle)
  have hle := length_skipGap_le middle
  exact ⟨left, hfirst.bind ((reads_blanks middle).bind hlast), hleft, by omega⟩

theorem Takes.orElse (h : Takes p ts a follow) (q : Parser α) :
    Takes (Parser.orElse p q) ts a follow := by
  intro more s hmore hs hgap
  obtain ⟨left, hreads, hleft⟩ := h more s hmore hs hgap
  exact ⟨left, hreads.orElse q, hleft⟩

theorem Balks.orElse_takes (hp : Balks p ts) (hq : Takes q ts a follow) :
    Takes (Parser.orElse p q) ts a follow := by
  intro more s hmore hs hgap
  obtain ⟨left, hreads, hleft⟩ := hq more s hmore hs hgap
  exact ⟨left, (hp more s hs hgap).orElse_reads hreads, hleft⟩

/-! ## Refusals -/

theorem Balks.append (h : Balks p ts) (us : List Token) : Balks p (ts ++ us) := by
  intro more s hs
  rw [List.append_assoc] at hs
  exact h _ s hs

theorem Balks.bind (h : Balks p ts) (f : α → Parser β) : Balks (p >>= f) ts :=
  fun more s hs hgap => (h more s hs hgap).bind f

theorem Balks.rule (h : Balks p ts) : Balks (Parser.rule p) ts :=
  fun more s hs hgap => (h more s hs hgap).rule

theorem balks_of_avoids {token : Token} {signs : List Char} (htoken : token.Avoids signs)
    (h : ∀ s, Avoids signs s → p.Refuses s) : Balks p [token] :=
  fun _ s hs hgap => h s (hs.avoids hgap htoken)

theorem balks_exactly {token : Token} {signs : List Char} (htoken : token.Avoids signs)
    {expected : Text} (hexpected : ¬ Avoids signs expected) : Balks (exactly expected) [token] :=
  balks_of_avoids htoken fun _ hs => refuses_exactly_of_avoids hs hexpected

/-- A fixed token is no longer sign that begins with it. -/
theorem balks_exactly_of_not_prefix {expected text : Text}
    (hgap : ∀ c ∈ expected, isGap c = false) (h : ¬ expected <+: text) :
    Balks (exactly expected) [.fixed text] := by
  intro more s hs hskip
  obtain ⟨spelled, rest, rfl, hspells, hhead, -⟩ := hs.first hskip
  rw [hspells.1]
  exact refuses_exactly fun hprefix => h (prefix_of_head hgap hhead hprefix)

/-! ## Options and lookahead -/

/-- What comes behind a part and blanks may be nothing. -/
theorem Takes.bind_nothing {f : α → Parser β} (h : Takes p ts a follow)
    (hnothing : ∀ more s, follow more → Spelled more s → skipGap s = s → (f a).Reads s b s) :
    Takes (p >>= fun a => blanks >>= fun _ => f a) ts b follow := by
  intro more s hmore hs hgap
  obtain ⟨middle, hreads, hmiddle, hlt⟩ := h more s hmore hs hgap
  have hlast := hnothing more _ hmore hmiddle.skipGap (skipGap_skipGap middle)
  have hskip := length_skipGap_le middle
  refine ⟨Parser.skipGap middle, ?_, hmiddle.skipGap, by omega⟩
  exact hreads.bind ((reads_blanks middle).bind hlast)

/-- A part that may follow, where none does. -/
theorem Takes.bind_none {part : Parser γ} (f : α → Option γ → δ) (h : Takes p ts a follow)
    (hstop : ∀ more s, follow more → Spelled more s → skipGap s = s → part.Refuses s) :
    Takes (do
        let first ← p
        blanks
        let found ← Parser.optional part
        return f first found)
      ts (f a none) follow := by
  refine h.bind_nothing fun more s hmore hs hgap => ?_
  exact (hstop more s hmore hs hgap).optional.bind (reads_pure _ s)

/-- What comes before a part and blanks may be nothing. -/
theorem Takes.nothing_bind {q : Parser γ} {c : γ} {f : γ → Parser β}
    (hnext : Takes (f c) ts b follow)
    (hnothing : ∀ more s, Spelled (ts ++ more) s → skipGap s = s → q.Reads s c s) :
    Takes (q >>= fun c => blanks >>= fun _ => f c) ts b follow := by
  intro more s hmore hs hgap
  obtain ⟨left, hreads, hleft⟩ := hnext more s hmore hs hgap
  have hblanks := reads_blanks s
  rw [hgap] at hblanks
  exact ⟨left, (hnothing more s hs hgap).bind (hblanks.bind hreads), hleft⟩

/-- A part that may stand first, where what stands behind it is there alone. -/
theorem Balks.none_bind {part : Parser γ} {f : Option γ → Parser β} (h : Balks part ts)
    (hnext : Takes (f none) ts b follow) :
    Takes (Parser.optional part >>= fun found => blanks >>= fun _ => f found) ts b follow :=
  hnext.nothing_bind fun more s hs hgap => (h more s hs hgap).optional

theorem Balks.absent_bind {part : Parser γ} (h : Balks part ts) (hnext : Takes p ts a follow) :
    Takes (Parser.absent part >>= fun _ => blanks >>= fun _ => p) ts a follow :=
  hnext.nothing_bind fun more s hs hgap => (h more s hs hgap).absent

/-! ## Repetition -/

/-- A further part takes its tokens, of which the first is one of the signs. -/
structure IsPart (part : Parser γ) (signs : List Text) (ts : List Token) (value : γ) : Prop where
  takes : Takes part ts value (Followed signs)
  begins : ∃ sign ∈ signs, ∃ us, ts = .fixed sign :: us

/-- Values beside their tokens. -/
theorem map_values {α β : Type} (f : α → β) (values : List α) :
    (values.map fun value => (f value, value)).map (·.2) = values := by
  rw [List.map_map]
  exact List.map_id values

section Parts

variable {part : Parser γ} {signs : List Text} {parts : List (List Token × γ)}

theorem followed_parts (hparts : ∀ p ∈ parts, IsPart part signs p.1 p.2) {more : List Token}
    (hmore : Followed signs more) : Followed signs (parts.flatMap (·.1) ++ more) := by
  cases parts with
  | nil => exact hmore
  | cons p parts =>
    obtain ⟨sign, hsign, us, hfirst⟩ := (hparts p List.mem_cons_self).begins
    rw [List.flatMap_cons, hfirst]
    exact followed_cons hsign _

/-- Further parts are taken one after another. -/
theorem takes_parts (hparts : ∀ p ∈ parts, IsPart part signs p.1 p.2) {more : List Token}
    (hmore : Followed signs more) (hstop : ∀ s, Spelled more s → skipGap s = s → part.Refuses s)
    {s : Text} (hs : Spelled (parts.flatMap (·.1) ++ more) s) :
    ∃ left, Repeats part s (parts.map (·.2)) left ∧ Spelled more left ∧ left.length ≤ s.length := by
  induction parts generalizing s with
  | nil => exact ⟨s, .stop (hstop _ hs.skipGap (skipGap_skipGap s)), hs, Nat.le_refl _⟩
  | cons p parts ih =>
    have hlater := fun q hq => hparts q (List.mem_cons_of_mem p hq)
    rw [List.flatMap_cons, List.append_assoc] at hs
    obtain ⟨middle, hreads, hmiddle, hlt⟩ := (hparts p List.mem_cons_self).takes _ _
      (followed_parts hlater hmore) hs.skipGap (skipGap_skipGap s)
    obtain ⟨left, hrepeats, hleft, hle⟩ := ih hlater hmiddle
    have hskip := length_skipGap_le s
    exact ⟨left, .next hreads (by omega) hrepeats, hleft, by omega⟩

/-- A first part and further parts are taken together. -/
theorem Takes.many {level : Parser α} (f : α → List γ → δ)
    (hfirst : Takes level ts a (Followed signs)) (hparts : ∀ p ∈ parts, IsPart part signs p.1 p.2)
    (hsub : ∀ more, follow more → Followed signs more)
    (hstop : ∀ more s, follow more → Spelled more s → skipGap s = s → part.Refuses s) :
    Takes (do
        let first ← level
        blanks
        let others ← Parser.many part
        return f first others)
      (ts ++ parts.flatMap (·.1)) (f a (parts.map (·.2))) follow := by
  intro more s hmore hs hgap
  rw [List.append_assoc] at hs
  obtain ⟨middle, hreads, hmiddle, hlt⟩ :=
    hfirst _ s (followed_parts hparts (hsub more hmore)) hs hgap
  obtain ⟨left, hrepeats, hleft, hle⟩ :=
    takes_parts hparts (hsub more hmore) (fun t => hstop more t hmore) hmiddle.skipGap
  have hskip := length_skipGap_le middle
  refine ⟨left, ?_, hleft, by omega⟩
  exact hreads.bind ((reads_blanks middle).bind
    ((reads_many hrepeats (skipGap_skipGap middle)).bind (reads_pure _ left)))

/-- A first part alone. -/
theorem Takes.alone {level : Parser α} (f : α → List γ → δ) (hfirst : Takes level ts a follow)
    (hstop : ∀ more s, follow more → Spelled more s → skipGap s = s → part.Refuses s) :
    Takes (do
        let first ← level
        blanks
        let others ← Parser.many part
        return f first others)
      ts (f a []) follow := by
  refine hfirst.bind_nothing fun more s hmore hs hgap => ?_
  have hnone : part.Refuses (Parser.skipGap s) := by
    rw [hgap]
    exact hstop more s hmore hs hgap
  exact (reads_many (.stop hnone) hgap).bind (reads_pure _ s)

/-- Parts of one kind with a sign between any two of them. -/
theorem Takes.separated {level : Parser γ} {sign : Text} (f : γ → List γ → δ) (hsign : sign ∈ signs)
    {first : List Token × γ} {others : List (List Token × γ)}
    (h : ∀ p ∈ first :: others, Takes level p.1 p.2 (Followed signs))
    (hsub : ∀ more, follow more → Followed signs more)
    (hstop : ∀ more s, follow more → Spelled more s → skipGap s = s → (exactly sign).Refuses s) :
    Takes (do
        let first ← level
        blanks
        let others ← Parser.many do
          let _ ← exactly sign
          blanks
          level
        return f first others)
      ((first :: others).flatMap fun p => .fixed sign :: p.1).tail (f first.2 (others.map (·.2)))
      follow := by
  have hparts : ∀ p ∈ others.map fun other => (.fixed sign :: other.1, other.2),
      IsPart (do let _ ← exactly sign; blanks; level) signs p.1 p.2 := by
    refine List.forall_mem_map.2 fun other hother => ⟨?_, sign, hsign, other.1, rfl⟩
    exact (takes_exactly sign).bind_blanks (h other (List.mem_cons_of_mem first hother))
      fun _ _ => trivial
  have hmany := (h first List.mem_cons_self).many f hparts hsub
    fun more s hmore hs hgap => (hstop more s hmore hs hgap).bind _
  rw [List.flatMap_map, List.map_map] at hmany
  rw [List.flatMap_cons, List.cons_append, List.tail_cons]
  exact hmany

end Parts

end Parser
end TreeSelect.XPath
