import TreeSelect.Proofs.XPath.Realizing

/-!
# The lexemes of the grammar

The rules without gaps describe lexemes character by character, and the scanners take what these
rules match: names (`scans_name`, `scans_nameTest`), words (`scans_word`), numbers (`scans_number`),
and strings (`realizes_string`), which give the text between the quote marks a pair of its own.

A repetition of single characters takes the longest run of them (`OneChar.many`).
-/

namespace TreeSelect.XPath.Parser

open TreeSelect.Peg (Mode Pair Pattern)

variable {input : Text} {mode : Mode} {pattern other : Pattern Rule} {accepts : Char → Bool}

/-! ## Without gaps -/

theorem matches_seq {s middle rest : Text} {pairs others : List (Pair Rule)}
    (hmode : mode ≠ .spaced) (h : Peg.Matches grammar input mode pattern s (some (pairs, middle)))
    (hother : Peg.Matches grammar input mode other middle (some (others, rest))) :
    Peg.Matches grammar input mode (.seq pattern (.seq .gap other)) s
      (some (pairs ++ others, rest)) :=
  .seq h (.seq (.no_gap hmode) hother)

theorem matches_seq_fails {s middle : Text} {pairs : List (Pair Rule)} (hmode : mode ≠ .spaced)
    (h : Peg.Matches grammar input mode pattern s (some (pairs, middle)))
    (hother : Peg.Matches grammar input mode other middle none) :
    Peg.Matches grammar input mode (.seq pattern (.seq .gap other)) s none :=
  .seq_fails_second h (.seq_fails_second (.no_gap hmode) hother)

/-! ## Single characters -/

/-- The pattern takes one character that `accepts` holds of. -/
structure OneChar (input : Text) (mode : Mode) (pattern : Pattern Rule) (accepts : Char → Bool) :
    Prop where
  takes : ∀ {c} rest, accepts c = true →
    Peg.Matches grammar input mode pattern (c :: rest) (some ([], rest))
  fails : ∀ {s : Text}, (∀ c ∈ s.head?, accepts c = false) →
    Peg.Matches grammar input mode pattern s none

theorem oneChar_char : OneChar input mode (.char accepts) accepts where
  takes _ hc := .char hc
  fails hs := .char_fails hs

theorem oneChar_text (expected : Char) :
    OneChar input mode (.text [expected]) (· == expected) where
  takes := by
    intro c rest hc
    exact .text (by rw [beq_iff_eq.1 hc]; rfl)
  fails := by
    intro s hs
    refine .text_fails fun hprefix => ?_
    obtain ⟨rest, rfl⟩ := hprefix
    have hfalse := hs expected rfl
    simp at hfalse

theorem OneChar.choice {others : Char → Bool} (h : OneChar input mode pattern accepts)
    (hother : OneChar input mode other others) :
    OneChar input mode (.choice pattern other) fun c => accepts c || others c where
  takes := by
    intro c rest hc
    by_cases hfirst : accepts c = true
    · exact .choice_first (h.takes rest hfirst)
    · rw [Bool.or_eq_true] at hc
      refine .choice_second (h.fails ?_) (hother.takes rest (hc.resolve_left hfirst))
      intro d hd
      cases hd
      simpa using hfirst
  fails := by
    intro s hs
    refine .choice_second (h.fails fun c hc => ?_) (hother.fails fun c hc => ?_)
    · exact (Bool.or_eq_false_iff.1 (hs c hc)).1
    · exact (Bool.or_eq_false_iff.1 (hs c hc)).2

/-- Without gaps, repeating takes the longest run of characters. -/
theorem OneChar.many (h : OneChar input mode pattern accepts) (hmode : mode ≠ .spaced) (s : Text) :
    Peg.Matches grammar input mode (Pattern.many pattern) s (some ([], s.dropWhile accepts)) := by
  have hrun : ∀ s : Text, Peg.Matches grammar input mode (.repeated (.seq .gap pattern)) s
      (some ([], s.dropWhile accepts)) := by
    intro s
    induction s with
    | nil => exact .repeated_stop (.seq_fails_second (.no_gap hmode) (h.fails (by simp)))
    | cons c s ih =>
      by_cases hc : accepts c = true
      · rw [List.dropWhile_cons_of_pos hc]
        exact .repeated_next (.seq (.no_gap hmode) (h.takes s hc)) ih
      · rw [List.dropWhile_cons_of_neg hc]
        refine .repeated_stop (.seq_fails_second (.no_gap hmode) (h.fails ?_))
        intro d hd
        cases hd
        simpa using hc
  cases s with
  | nil => exact .optional_missing (.seq_fails_first (h.fails (by simp)))
  | cons c s =>
    by_cases hc : accepts c = true
    · rw [List.dropWhile_cons_of_pos hc]
      exact .optional_there (.seq (h.takes s hc) (hrun s))
    · rw [List.dropWhile_cons_of_neg hc]
      refine .optional_missing (.seq_fails_first (h.fails ?_))
      intro d hd
      cases hd
      simpa using hc

theorem OneChar.atLeastOne (h : OneChar input mode pattern accepts) (hmode : mode ≠ .spaced)
    {s : Text} (hs : s.takeWhile accepts ≠ []) :
    Peg.Matches grammar input mode (Pattern.atLeastOne pattern) s
      (some ([], s.dropWhile accepts)) := by
  cases s with
  | nil => exact absurd rfl hs
  | cons c s =>
    by_cases hc : accepts c = true
    · rw [List.dropWhile_cons_of_pos hc]
      exact matches_seq hmode (h.takes s hc) (h.many hmode s)
    · rw [List.takeWhile_cons_of_neg hc] at hs
      exact absurd rfl hs

theorem OneChar.atLeastOne_fails (h : OneChar input mode pattern accepts) {s : Text}
    (hs : s.takeWhile accepts = []) :
    Peg.Matches grammar input mode (Pattern.atLeastOne pattern) s none := by
  refine .seq_fails_first (h.fails fun c hc => ?_)
  cases s with
  | nil => cases hc
  | cons d s =>
    cases hc
    by_cases haccepts : accepts c = true
    · rw [List.takeWhile_cons_of_pos haccepts] at hs
      cases hs
    · simpa using haccepts

/-! ## Names -/

theorem oneChar_nameChar : OneChar input .atomic (.rule .nameChar) Lexeme.isNameChar := by
  have hbody : OneChar input .atomic (Rule.body .nameChar) fun c =>
      c.isAlphanum || (c == '_' || (c == '-' || c == '.')) :=
    oneChar_char.choice ((oneChar_text '_').choice ((oneChar_text '-').choice (oneChar_text '.')))
  have heq : (fun c : Char => c.isAlphanum || (c == '_' || (c == '-' || c == '.'))) =
      Lexeme.isNameChar := by
    funext c
    simp [Lexeme.isNameChar, Bool.or_assoc]
  rw [heq] at hbody
  constructor
  · intro c rest hc
    exact .rule (show c :: rest = [c] ++ rest from rfl) (hbody.takes rest hc)
  · intro s hs
    exact .rule_fails (hbody.fails hs)

theorem scans_plainName : Scans input Lexeme.scanPlainName .atomic (.rule .ncname) where
  splits := Lexeme.splits_scanPlainName
  takes := by
    have hstart : OneChar input .atomic (.choice (.char Char.isAlpha) (.text ['_']))
        Lexeme.isNameStart :=
      oneChar_char.choice (oneChar_text '_')
    intro s
    cases s with
    | nil => exact .rule_fails (.seq_fails_first (hstart.fails (by simp)))
    | cons c s =>
      rw [Lexeme.scanPlainName]
      by_cases hc : Lexeme.isNameStart c = true
      · rw [if_pos hc]
        have hbody : Peg.Matches grammar input .atomic (Rule.body .ncname) (c :: s)
            (some ([], s.dropWhile Lexeme.isNameChar)) :=
          matches_seq (by decide) (hstart.takes s hc) (oneChar_nameChar.many (by decide) s)
        have hsplit : c :: s =
            c :: s.takeWhile Lexeme.isNameChar ++ s.dropWhile Lexeme.isNameChar := by
          rw [List.cons_append, List.takeWhile_append_dropWhile]
        exact .rule hsplit hbody
      · rw [if_neg hc]
        refine .rule_fails (.seq_fails_first (hstart.fails ?_))
        intro d hd
        cases hd
        simpa using hc

/-- A rule without gaps inside another one gives no pairs. -/
theorem Scans.rule {scan : Text → Option (Text × Text)} {name : Rule}
    (hmodifier : name.modifier = .atomic) (h : Scans input scan .atomic name.body) :
    Scans input scan .atomic (.rule name) where
  splits := h.splits
  takes := by
    intro s
    have hbody := h.takes s
    have hinside : (grammar.modifier name).inside .atomic = .atomic := by
      show name.modifier.inside .atomic = .atomic
      rw [hmodifier]
      rfl
    cases hscan : scan s with
    | none =>
      rw [hscan] at hbody
      exact .rule_fails (by rw [hinside]; exact hbody)
    | some taken =>
      obtain ⟨taken, rest⟩ := taken
      rw [hscan] at hbody
      have hpairs : (grammar.modifier name).pairs .atomic name taken [] = [] := by
        show name.modifier.pairs .atomic name taken [] = []
        rw [hmodifier]
        rfl
      have hrule : Peg.Matches grammar input .atomic (.rule name) s
          (some ((grammar.modifier name).pairs .atomic name taken [], rest)) :=
        .rule (h.splits _ _ _ hscan) (by rw [hinside]; exact hbody)
      rw [hpairs] at hrule
      exact hrule

theorem scans_name : Scans input Lexeme.scanName .atomic (.rule .qname) := by
  refine Scans.rule rfl ⟨Lexeme.splits_scanName, fun s => ?_⟩
  have hname : Peg.Matches grammar input .atomic (.rule .ncname) s _ := scans_plainName.takes s
  unfold Lexeme.scanName
  split
  case h_1 hnone =>
    rw [hnone] at hname
    exact .seq_fails_first hname
  case h_2 name rest hsome =>
    rw [hsome] at hname
    have hlocal : Peg.Matches grammar input .atomic (.rule .ncname) rest _ :=
      scans_plainName.takes rest
    split
    case h_1 localName after hlocalName =>
      rw [hlocalName] at hlocal
      exact matches_seq (by decide) hname
        (.optional_there (matches_seq (by decide) (.text rfl) hlocal))
    case h_2 hnone =>
      rw [hnone] at hlocal
      exact matches_seq (by decide) hname
        (.optional_missing (matches_seq_fails (by decide) (.text rfl) hlocal))
  case h_3 name rest hcolon hsome =>
    rw [hsome] at hname
    refine matches_seq (by decide) hname (.optional_missing (.seq_fails_first (.text_fails ?_)))
    rintro ⟨after, rfl⟩
    exact hcolon after rfl

theorem scans_nameTest : Scans input Lexeme.scanNameTest .atomic (Rule.body .nameTest) where
  splits := Lexeme.splits_scanNameTest
  takes := by
    intro s
    unfold Lexeme.scanNameTest
    split
    case h_1 rest => exact .choice_first (.text rfl)
    case h_2 hstar =>
      refine .choice_second (.text_fails ?_) (scans_name.takes s)
      rintro ⟨rest, rfl⟩
      exact hstar rest rfl

/-! ## Words and separators -/

theorem scans_word (word : String) :
    Scans input (Lexeme.scanWord word.toList) .atomic (Rule.keyword word) where
  splits := Lexeme.splits_scanWord _
  takes := by
    intro s
    have hword : Peg.Matches grammar input .atomic (Rule.sign word) s _ :=
      (scans_scanText word.toList).takes s
    unfold Lexeme.scanWord
    split
    case h_1 c rest hsome =>
      rw [hsome] at hword
      split
      case isTrue hc =>
        exact matches_seq_fails (by decide) hword (.absent_fails (oneChar_nameChar.takes rest hc))
      case isFalse hc =>
        refine matches_seq (by decide) hword (.absent (oneChar_nameChar.fails ?_))
        intro d hd
        cases hd
        simpa using hc
    case h_2 hsome =>
      rw [hsome] at hword
      exact matches_seq (by decide) hword (.absent (oneChar_nameChar.fails (by simp)))
    case h_3 hnone =>
      rw [hnone] at hword
      exact .seq_fails_first hword

theorem scans_separator :
    Scans input (Lexeme.scanFirst ["//".toList, "/".toList]) .atomic (Rule.body .pathSep) where
  splits := Lexeme.splits_scanFirst _
  takes := by
    intro s
    have hdouble : Peg.Matches grammar input .atomic (Rule.sign "//") s _ :=
      (scans_scanText "//".toList).takes s
    have hsingle : Peg.Matches grammar input .atomic (Rule.sign "/") s _ :=
      (scans_scanText "/".toList).takes s
    unfold Lexeme.scanFirst
    cases hfirst : scanText "//".toList s with
    | some taken =>
      rw [hfirst] at hdouble
      rw [List.findSome?_cons, hfirst]
      exact .choice_first hdouble
    | none =>
      rw [hfirst] at hdouble
      rw [List.findSome?_cons, hfirst, List.findSome?_singleton]
      exact .choice_second hdouble hsingle

/-! ## Numbers -/

theorem scans_number : Scans input Lexeme.scanNumber .atomic (Rule.body .number) where
  splits := Lexeme.splits_scanNumber
  takes := by
    intro s
    have hdigit : OneChar input .atomic (.char Char.isDigit) Char.isDigit := oneChar_char
    have hsplit : s.takeWhile Char.isDigit ++ s.dropWhile Char.isDigit = s :=
      List.takeWhile_append_dropWhile
    simp only [Lexeme.scanNumber]
    by_cases hwhole : s.takeWhile Char.isDigit = []
    · -- without digits before it, the point has to have digits behind it
      rw [hwhole, List.nil_append] at hsplit
      refine .choice_second (.seq_fails_first (hdigit.atLeastOne_fails hwhole)) ?_
      split
      case h_1 rest hpoint =>
        rw [hsplit] at hpoint
        subst hpoint
        by_cases hfraction : rest.takeWhile Char.isDigit = []
        · rw [if_pos (by simp [hwhole, hfraction])]
          exact matches_seq_fails (by decide) (.text rfl) (hdigit.atLeastOne_fails hfraction)
        · rw [if_neg (by simp [hfraction])]
          exact matches_seq (by decide) (.text rfl) (hdigit.atLeastOne (by decide) hfraction)
      case h_2 hpoint =>
        rw [if_pos (by simp [hwhole])]
        refine .seq_fails_first (.text_fails ?_)
        rintro ⟨rest, rfl⟩
        exact hpoint rest hsplit
    · have hdigits := hdigit.atLeastOne (by decide) hwhole
      split
      case h_1 rest hpoint =>
        rw [if_neg (by simp [hwhole])]
        rw [hpoint] at hdigits
        exact .choice_first (matches_seq (by decide) hdigits
          (.optional_there (matches_seq (by decide) (.text rfl) (hdigit.many (by decide) rest))))
      case h_2 hpoint =>
        rw [if_neg (by simp [hwhole])]
        refine .choice_first (matches_seq (by decide) hdigits
          (.optional_missing (.seq_fails_first (.text_fails ?_))))
        rintro ⟨rest, hrest⟩
        exact hpoint rest hrest.symm

/-! ## Strings -/

/-- What stands before the next quote mark is taken, and so is the whole text if there is none. -/
theorem matches_unquoted (mark : Char) (s : Text) :
    Peg.Matches grammar input .atomic
      (Pattern.many (Pattern.sequence (.absent (.text [mark])) [.char fun _ => true])) s
      (some ([], s.dropWhile (· != mark))) := by
  refine OneChar.many ⟨?_, ?_⟩ (by decide) s
  · intro c rest hc
    refine matches_seq (by decide) (.absent ((oneChar_text mark).fails ?_)) (.char rfl)
    intro d hd
    cases hd
    simpa using hc
  · intro s hs
    cases s with
    | nil =>
      refine matches_seq_fails (by decide) (.absent (.text_fails (by simp))) (.char_fails (by simp))
    | cons c s =>
      have hc : (c != mark) = false := hs c rfl
      exact .seq_fails_first (.absent_fails ((oneChar_text mark).takes s (by simpa using hc)))

/-- The pair and the remainder of a string that has been scanned. -/
def stringPair (name : Rule) (taken : Text × Text) : List (Pair Rule) × Text :=
  ([.node name (taken.1.drop 1).dropLast []], taken.2)

/-- A string behind its first quote mark. -/
theorem matches_quoted {mark : Char} (hmark : mark = '"' ∨ mark = '\'') {name : Rule}
    (hmodifier : name.modifier = .atomic)
    (hbody : name.body =
      Pattern.many (Pattern.sequence (.absent (.text [mark])) [.char fun _ => true])) (s : Text) :
    Peg.Matches grammar input .compound
      (Pattern.sequence (.text [mark]) [.rule name, .text [mark]]) (mark :: s)
      ((Lexeme.scanString (mark :: s)).map (stringPair name)) := by
  have hinside : (grammar.modifier name).inside .compound = .atomic := by
    show name.modifier.inside .compound = .atomic
    rw [hmodifier]
    rfl
  have hpairs : ∀ taken, (grammar.modifier name).pairs .compound name taken [] =
      [.node name taken []] := by
    intro taken
    show name.modifier.pairs .compound name taken [] = _
    rw [hmodifier]
    rfl
  have hcontent : Peg.Matches grammar input .atomic _ s _ := matches_unquoted mark s
  have hrule : Peg.Matches grammar input .compound (.rule name) s
      (some ((grammar.modifier name).pairs .compound name (s.takeWhile (· != mark)) [],
        s.dropWhile (· != mark))) :=
    .rule List.takeWhile_append_dropWhile.symm
      (by rw [hinside, show grammar.body name = _ from hbody]; exact hcontent)
  rw [hpairs] at hrule
  rw [Lexeme.scanString, if_pos hmark]
  cases hcut : Text.cut? mark s with
  | none =>
    have hnone := Text.cut?_eq_none_iff.1 hcut
    have hdrop : s.dropWhile (· != mark) = [] := by
      have hchars : ∀ c ∈ s, (c != mark) = true := by
        intro c hc
        simpa using fun hcase : c = mark => hnone (hcase ▸ hc)
      have happend : (s ++ []).dropWhile (· != mark) = [].dropWhile (· != mark) :=
        List.dropWhile_append_of_pos hchars
      rwa [List.append_nil] at happend
    rw [hdrop] at hrule
    exact matches_seq_fails (by decide) (.text rfl)
      (matches_seq_fails (by decide) hrule (.text_fails (by simp)))
  | some parts =>
    obtain ⟨content, after⟩ := parts
    obtain ⟨rfl, hnone⟩ := Text.cut?_eq_some_iff.1 hcut
    have hchars : ∀ c ∈ content, (c != mark) = true := by
      intro c hc
      simpa using fun hcase : c = mark => hnone (hcase ▸ hc)
    have hmarked : ∀ c ∈ (mark :: after).head?, (c != mark) = false := by simp
    obtain ⟨htake, hdrop⟩ := Text.takeWhile_run hchars hmarked
    have hpair : stringPair name (mark :: content ++ [mark], after) =
        ([.node name content []], after) := by
      simp [stringPair]
    rw [htake, hdrop] at hrule
    rw [Option.map_some, Option.map_some, hpair]
    exact matches_seq (by decide) (.text rfl) (matches_seq (by decide) hrule (.text rfl))

/-- Strings give one pair, which has the text between the quote marks. -/
theorem matches_string (s : Text) :
    ∃ name, Peg.Matches grammar input .compound (Rule.body .literal) s
      ((Lexeme.scanString s).map (stringPair name)) := by
  have hfails : ∀ (mark : Char) (name : Rule), mark ∉ s.head? →
      Peg.Matches grammar input .compound
        (Pattern.sequence (.text [mark]) [.rule name, .text [mark]]) s none := by
    intro mark name hhead
    refine .seq_fails_first ((oneChar_text mark).fails fun c hc => ?_)
    simpa using fun hcase : c = mark => hhead (hcase ▸ hc)
  rcases s with _ | ⟨c, s⟩
  · exact ⟨.doubleQuoted, .choice_second (hfails '"' .doubleQuoted (by simp))
      (hfails '\'' .singleQuoted (by simp))⟩
  by_cases hdouble : c = '"'
  · subst hdouble
    refine ⟨.doubleQuoted, ?_⟩
    have hquoted : Peg.Matches grammar input .compound _ ('"' :: s) _ :=
      matches_quoted (.inl rfl) (show Rule.modifier .doubleQuoted = .atomic from rfl) rfl s
    cases hscan : Lexeme.scanString ('"' :: s) with
    | none =>
      rw [hscan] at hquoted
      exact .choice_second hquoted (hfails '\'' .singleQuoted (by simp))
    | some taken =>
      rw [hscan] at hquoted
      exact .choice_first hquoted
  by_cases hsingle : c = '\''
  · subst hsingle
    exact ⟨.singleQuoted, .choice_second (hfails '"' .doubleQuoted (by simp))
      (matches_quoted (.inr rfl) rfl rfl s)⟩
  · refine ⟨.doubleQuoted, ?_⟩
    rw [Lexeme.scanString, if_neg (by simp [hdouble, hsingle])]
    exact .choice_second (hfails '"' .doubleQuoted (by simpa using hdouble))
      (hfails '\'' .singleQuoted (by simpa using hsingle))

theorem realizes_string {n : Nat} :
    Realizes input n (lexeme Lexeme.scanString) .compound (Rule.body .literal)
      fun value text pairs => text = value ∧
        ∃ name, pairs = [.node name (value.drop 1).dropLast []] := by
  have hstring : ∀ s, ∃ name, Peg.Matches grammar input .compound (Rule.body .literal) s
      ((Lexeme.scanString s).map (stringPair name)) := matches_string
  refine realizes_lexeme Lexeme.splits_scanString (fun s taken rest hscan => ?_) fun s hscan => ?_
  · obtain ⟨name, hmatches⟩ := hstring s
    rw [hscan] at hmatches
    exact ⟨_, hmatches, rfl, name, rfl⟩
  · obtain ⟨name, hmatches⟩ := hstring s
    rw [hscan] at hmatches
    exact hmatches

end TreeSelect.XPath.Parser
