import TreeSelect.Text.Blank

/-!
# Cutting and joining

A text that is cut at a character gives the text again when its pieces are joined by that character.
The words of a text are its pieces between blanks, and with one space between neighbours they can be
found by searching.

* `takeWhile_run`: a run of characters is taken as a whole.
* `intercalate_split`: joining undoes splitting; `split_eq_iff`: no other pieces than those of the
  split do.
* `mem_words_iff`: the words are the runs without blanks that go on neither to the left nor to the
  right; `exists_hasWordAt_lt`: they are listed in the order of their places.
* `words_intercalate`: words that are joined by spaces are found again.
* `includes_collapseBlanks`: a run between spaces is found exactly if it is a word.
-/

namespace TreeSelect

/-- A list with separators is the first element and the others behind separators. -/
theorem intersperse_cons {α : Type} (separator first : α) (others : List α) :
    (first :: others).intersperse separator =
      first :: others.flatMap fun other => [separator, other] := by
  induction others generalizing first with
  | nil => rfl
  | cons second others ih =>
    rw [List.intersperse_cons_cons, ih, List.flatMap_cons]
    rfl

theorem map_intersperse {α β : Type} (f : α → β) (separator : α) (list : List α) :
    (list.intersperse separator).map f = (list.map f).intersperse (f separator) := by
  cases list with
  | nil => rfl
  | cons first others =>
    rw [intersperse_cons, List.map_cons, List.map_cons, intersperse_cons, List.map_flatMap,
      List.flatMap_map]
    rfl

namespace Text

/-! ## Runs -/

/-- Before any other character the run is empty. -/
theorem takeWhile_of_head {p : Char → Bool} {rest : Text} (h : ∀ c ∈ rest.head?, p c = false) :
    rest.takeWhile p = [] ∧ rest.dropWhile p = rest := by
  cases rest with
  | nil => exact ⟨rfl, rfl⟩
  | cons c rest =>
    have hc : ¬ p c = true := by simp [h c rfl]
    exact ⟨List.takeWhile_cons_of_neg hc, List.dropWhile_cons_of_neg hc⟩

/-- A run is taken as a whole, and nothing behind it. -/
theorem takeWhile_run {p : Char → Bool} {run rest : Text} (hrun : ∀ c ∈ run, p c = true)
    (hrest : ∀ c ∈ rest.head?, p c = false) :
    (run ++ rest).takeWhile p = run ∧ (run ++ rest).dropWhile p = rest := by
  obtain ⟨htake, hdrop⟩ := takeWhile_of_head hrest
  rw [List.takeWhile_append_of_pos hrun, List.dropWhile_append_of_pos hrun, htake, hdrop,
    List.append_nil]
  exact ⟨rfl, rfl⟩

/-- A run of characters has been dropped as a whole. -/
theorem head_dropWhile {p : Char → Bool} {s : Text} : ∀ c ∈ (s.dropWhile p).head?, p c = false := by
  intro c hc
  have hhead := List.head?_dropWhile_not p s
  rw [Option.mem_def.1 hc] at hhead
  simpa using hhead

/-! ## Pieces -/

/-- Joined texts are the first one and the others behind separators. -/
theorem intercalate_cons (separator first : Text) (others : List Text) :
    separator.intercalate (first :: others) = first ++ others.flatMap (separator ++ ·) := by
  rw [List.intercalate, intersperse_cons, List.flatten_cons]
  congr 1
  induction others with
  | nil => rfl
  | cons second others ih =>
    rw [List.flatMap_cons, List.flatMap_cons, List.flatten_append, ih]
    simp

theorem intercalate_append {separator : Text} {pieces others : List Text} (hpieces : pieces ≠ [])
    (hothers : others ≠ []) :
    separator.intercalate (pieces ++ others) =
      separator.intercalate pieces ++ separator ++ separator.intercalate others := by
  obtain ⟨first, pieces, rfl⟩ := List.exists_cons_of_ne_nil hpieces
  obtain ⟨second, others, rfl⟩ := List.exists_cons_of_ne_nil hothers
  rw [List.cons_append, intercalate_cons, intercalate_cons, intercalate_cons, List.flatMap_append,
    List.flatMap_cons]
  simp only [List.append_assoc]

/-- An empty piece before the others leaves its separator. -/
theorem intercalate_nil_cons (separator : Char) {pieces : List Text} (h : pieces ≠ []) :
    [separator].intercalate ([] :: pieces) = separator :: [separator].intercalate pieces := by
  obtain ⟨first, others, rfl⟩ := List.exists_cons_of_ne_nil h
  rw [intercalate_cons, intercalate_cons]
  rfl

/-- What is put before the first piece stands before all of them. -/
theorem intercalate_modifyHead (separator : Char) {pieces : List Text} (h : pieces ≠ [])
    (c : Char) :
    [separator].intercalate (pieces.modifyHead (c :: ·)) = c :: [separator].intercalate pieces := by
  obtain ⟨first, others, rfl⟩ := List.exists_cons_of_ne_nil h
  rw [List.modifyHead_cons, intercalate_cons, intercalate_cons]
  rfl

/-- The characters of a piece come from the text, and none of them is a separator. -/
theorem of_mem_splitWhere {isSeparator : Char → Bool} {s piece : Text}
    (h : piece ∈ s.splitWhere isSeparator) : ∀ c ∈ piece, c ∈ s ∧ isSeparator c = false := by
  induction s generalizing piece with
  | nil =>
    rw [splitWhere, List.mem_singleton] at h
    subst h
    intro c hc
    cases hc
  | cons d s ih =>
    have hlater : ∀ {other : Text}, other ∈ splitWhere isSeparator s →
        ∀ c ∈ other, c ∈ d :: s ∧ isSeparator c = false := by
      intro other hother c hc
      exact ⟨List.mem_cons_of_mem d (ih hother c hc).1, (ih hother c hc).2⟩
    rw [splitWhere] at h
    split at h
    case isTrue =>
      rcases List.mem_cons.1 h with rfl | h
      · intro c hc
        cases hc
      · exact hlater h
    case isFalse hd =>
      cases hpieces : splitWhere isSeparator s with
      | nil => exact absurd hpieces (splitWhere_ne_nil _ s)
      | cons first others =>
        rw [hpieces] at h hlater
        rw [List.modifyHead_cons] at h
        rcases List.mem_cons.1 h with rfl | h
        · intro c hc
          rcases List.mem_cons.1 hc with rfl | hfirst
          · exact ⟨List.mem_cons_self, Bool.eq_false_iff.2 hd⟩
          · exact hlater List.mem_cons_self c hfirst
        · exact hlater (List.mem_cons_of_mem first h)

theorem not_mem_of_mem_split {separator : Char} {s piece : Text}
    (h : piece ∈ s.split separator) : separator ∉ piece := by
  intro hmem
  have hne := (of_mem_splitWhere h separator hmem).2
  rw [beq_self_eq_true] at hne
  cases hne

/-- Joining undoes splitting. -/
theorem intercalate_split (separator : Char) (s : Text) :
    [separator].intercalate (s.split separator) = s := by
  induction s with
  | nil => rfl
  | cons c s ih =>
    rw [split] at ih ⊢
    have hpieces := splitWhere_ne_nil (· == separator) s
    rw [splitWhere]
    split
    case isTrue hc => rw [intercalate_nil_cons separator hpieces, ih, beq_iff_eq.1 hc]
    case isFalse => rw [intercalate_modifyHead separator hpieces, ih]

/-- What holds no separator goes before the first piece. -/
theorem split_append {separator : Char} {piece : Text} (h : separator ∉ piece) (s : Text) :
    (piece ++ s).split separator = (s.split separator).modifyHead (piece ++ ·) := by
  induction piece with
  | nil => cases hs : s.split separator <;> simp [hs]
  | cons c piece ih =>
    rw [List.mem_cons, not_or] at h
    have hc : (c == separator) = false := beq_false_of_ne (Ne.symm h.1)
    rw [split] at ih ⊢
    rw [List.cons_append, splitWhere, hc, if_neg (by simp), ih h.2, List.modifyHead_modifyHead]
    rfl

/-- Splitting undoes joining, where each piece stands behind a separator. -/
theorem split_flatMap {separator : Char} {pieces : List Text}
    (h : ∀ piece ∈ pieces, separator ∉ piece) :
    Text.split separator (pieces.flatMap (separator :: ·)) = [] :: pieces := by
  induction pieces with
  | nil => rfl
  | cons piece pieces ih =>
    have hlater := ih fun other hother => h other (List.mem_cons_of_mem piece hother)
    have hpiece := split_append (h piece List.mem_cons_self) (pieces.flatMap (separator :: ·))
    rw [hlater] at hpiece
    rw [List.flatMap_cons, List.cons_append, split, splitWhere, beq_self_eq_true, if_pos rfl]
    rw [split] at hpiece
    rw [hpiece, List.modifyHead_cons, List.append_nil]

/-- The pieces of a text are the only ones without the separator that give the text when they are
joined by it. -/
theorem split_eq_iff {separator : Char} {s : Text} {pieces : List Text} :
    s.split separator = pieces ↔ pieces ≠ [] ∧ [separator].intercalate pieces = s ∧
      ∀ piece ∈ pieces, separator ∉ piece := by
  constructor
  · rintro rfl
    exact ⟨splitWhere_ne_nil _ s, intercalate_split separator s, fun _ => not_mem_of_mem_split⟩
  · rintro ⟨hne, rfl, hpieces⟩
    obtain ⟨first, others, rfl⟩ := List.exists_cons_of_ne_nil hne
    obtain ⟨hfirst, hothers⟩ := List.forall_mem_cons.1 hpieces
    have hjoined : others.flatMap ([separator] ++ ·) = others.flatMap (separator :: ·) := rfl
    rw [intercalate_cons, split_append hfirst, hjoined, split_flatMap hothers,
      List.modifyHead_cons, List.append_nil]

/-- A separator ends one piece and begins another. -/
theorem splitWhere_append {isSeparator : Char → Bool} {c : Char} (hc : isSeparator c = true)
    (s t : Text) :
    splitWhere isSeparator (s ++ c :: t) =
      splitWhere isSeparator s ++ splitWhere isSeparator t := by
  induction s with
  | nil => simp [splitWhere, hc]
  | cons d s ih =>
    obtain ⟨first, others, hpieces⟩ :=
      List.exists_cons_of_ne_nil (splitWhere_ne_nil isSeparator s)
    rw [List.cons_append, splitWhere, splitWhere, ih, hpieces]
    split <;> rfl

/-- Without a separator all is one piece. -/
theorem splitWhere_of_forall {isSeparator : Char → Bool} {s : Text}
    (h : ∀ c ∈ s, isSeparator c = false) : splitWhere isSeparator s = [s] := by
  induction s with
  | nil => rfl
  | cons c s ih =>
    obtain ⟨hc, hs⟩ := List.forall_mem_cons.1 h
    rw [splitWhere, hc, if_neg (by simp), ih hs, List.modifyHead_cons]

/-! ## Words -/

theorem isBlank_space : isBlank ' ' = true := by decide

/-- A word has characters, and none of them is blank. -/
theorem of_mem_words {s word : Text} (h : word ∈ s.words) :
    word ≠ [] ∧ ∀ c ∈ word, isBlank c = false := by
  obtain ⟨hpiece, hne⟩ := List.mem_filter.1 h
  exact ⟨by simpa using hne, fun c hc => (of_mem_splitWhere hpiece c hc).2⟩

/-- A blank ends a word. -/
theorem words_append_blank {c : Char} (hc : isBlank c = true) (s t : Text) :
    words (s ++ c :: t) = s.words ++ t.words := by
  rw [words, splitWhere_append hc, List.filter_append, words, words]

/-- A run without blanks is one word. -/
theorem words_of_forall {s : Text} (hne : s ≠ []) (h : ∀ c ∈ s, isBlank c = false) :
    s.words = [s] := by
  rw [words, splitWhere_of_forall h]
  simp [hne]

/-- No word goes on behind a text that is empty or ends with a blank. -/
theorem words_append_of_getLast? {s : Text} (hs : ∀ c ∈ s.getLast?, isBlank c = true) (t : Text) :
    words (s ++ t) = s.words ++ t.words := by
  rcases List.eq_nil_or_concat s with rfl | ⟨start, c, rfl⟩
  · rfl
  · have hc := hs c (by simp)
    have hstart : words (start ++ [c]) = words start := by
      rw [words_append_blank hc]
      exact List.append_nil _
    rw [List.concat_eq_append, List.append_assoc, List.singleton_append, words_append_blank hc,
      hstart]

/-- A run without blanks is the first word where no further character belongs to it. -/
theorem words_append_of_head? {run : Text} (hne : run ≠ []) (hrun : ∀ c ∈ run, isBlank c = false)
    {t : Text} (ht : ∀ c ∈ t.head?, isBlank c = true) : words (run ++ t) = run :: t.words := by
  cases t with
  | nil =>
    rw [List.append_nil, words_of_forall hne hrun]
    rfl
  | cons c t =>
    have hc := ht c rfl
    rw [words_append_blank hc, words_of_forall hne hrun]
    exact congrArg (run :: ·) (words_append_blank hc [] t).symm

/-- Words that are joined by spaces are found again. -/
theorem words_intercalate {pieces : List Text}
    (h : ∀ piece ∈ pieces, piece ≠ [] ∧ ∀ c ∈ piece, isBlank c = false) :
    words ([' '].intercalate pieces) = pieces := by
  induction pieces with
  | nil => rfl
  | cons first others ih =>
    obtain ⟨⟨hne, hfirst⟩, hothers⟩ := List.forall_mem_cons.1 h
    by_cases hnone : others = []
    · subst hnone
      rw [intercalate_cons, List.flatMap_nil, List.append_nil, words_of_forall hne hfirst]
    · rw [List.intercalate_cons_of_ne_nil hnone, List.append_assoc, List.singleton_append,
        words_append_blank isBlank_space, words_of_forall hne hfirst, ih hothers]
      rfl

theorem eq_of_mem_words {s word : Text} (h : word ∈ s.words) (hs : ∀ c ∈ s, isBlank c = false) :
    word = s := by
  rw [words, splitWhere_of_forall hs] at h
  exact List.mem_singleton.1 (List.mem_filter.1 h).1

/-! ## Places of words -/

/-- Whether a word stands in a text with so many characters before it, so that it goes on neither to
the left nor to the right. -/
structure HasWordAt (s word : Text) (place : Nat) : Prop where
  ne_nil : word ≠ []
  unbroken : ∀ c ∈ word, isBlank c = false
  stands : ∃ before after, s = before ++ word ++ after ∧ before.length = place ∧
    (∀ c ∈ before.getLast?, isBlank c = true) ∧ ∀ c ∈ after.head?, isBlank c = true

namespace HasWordAt

variable {s word : Text} {place : Nat}

theorem lt_length (h : s.HasWordAt word place) : place < s.length := by
  obtain ⟨before, after, rfl, rfl, -, -⟩ := h.stands
  have hpos := List.length_pos_iff.2 h.ne_nil
  rw [List.length_append, List.length_append]
  omega

/-- What stands behind a blank stands there in the whole text. -/
theorem append_left (h : s.HasWordAt word place) {start : Text}
    (hstart : ∀ c ∈ start.getLast?, isBlank c = true) :
    (start ++ s).HasWordAt word (start.length + place) := by
  obtain ⟨before, after, rfl, rfl, hbefore, hafter⟩ := h.stands
  refine ⟨h.ne_nil, h.unbroken, start ++ before, after, by simp, by simp, fun c hc => ?_, hafter⟩
  rw [List.getLast?_append] at hc
  cases hlast : before.getLast? with
  | none => exact hstart c (by simpa [hlast] using hc)
  | some last => exact hbefore c (by simpa [hlast] using hc)

/-- What stands before a blank stands there in the whole text. -/
theorem append_right (h : s.HasWordAt word place) (hs : ∀ c ∈ s.getLast?, isBlank c = true)
    (t : Text) : (s ++ t).HasWordAt word place := by
  obtain ⟨before, after, rfl, hplace, hbefore, hafter⟩ := h.stands
  refine ⟨h.ne_nil, h.unbroken, before, after ++ t, by simp, hplace, hbefore, ?_⟩
  cases after with
  | nil =>
    -- the text would end with the word
    obtain ⟨start, c, rfl⟩ := (List.eq_nil_or_concat word).resolve_left h.ne_nil
    have hblank := hs c (by simp)
    rw [h.unbroken c (by simp)] at hblank
    cases hblank
  | cons c after => exact hafter

/-- A word parts the words of the text into those before it and those behind it. -/
theorem exists_words_eq (h : s.HasWordAt word place) :
    ∃ before after, s = before ++ (word ++ after) ∧ before.length = place ∧
      (∀ c ∈ before.getLast?, isBlank c = true) ∧
      s.words = before.words ++ word :: after.words := by
  obtain ⟨before, after, rfl, hplace, hbefore, hafter⟩ := h.stands
  refine ⟨before, after, List.append_assoc .., hplace, hbefore, ?_⟩
  rw [List.append_assoc, words_append_of_getLast? hbefore,
    words_append_of_head? h.ne_nil h.unbroken hafter]

end HasWordAt

/-- Each word of a text stands somewhere in it. -/
theorem exists_hasWordAt {s word : Text} (h : word ∈ s.words) : ∃ place, s.HasWordAt word place := by
  obtain ⟨hne, hword⟩ := of_mem_words h
  -- from one blank of the text to the next
  induction hlength : s.length using Nat.strongRecOn generalizing s with
  | ind length ih =>
    cases hfind : s.find? isBlank with
    | none =>
      have hs : ∀ c ∈ s, isBlank c = false := by simpa using hfind
      obtain rfl := eq_of_mem_words h hs
      exact ⟨0, hne, hword, [], [], by simp, rfl, by simp, by simp⟩
    | some c =>
      obtain ⟨hc, first, rest, rfl, hfirst⟩ := List.find?_eq_some_iff_append.1 hfind
      rw [words_append_blank hc, List.mem_append] at h
      rcases h with h | h
      · obtain rfl := eq_of_mem_words h (by simpa using hfirst)
        exact ⟨0, hne, hword, [], c :: rest, by simp, rfl, by simp, by simp [hc]⟩
      · have hlt : rest.length < length := by
          rw [← hlength, List.length_append, List.length_cons]
          omega
        obtain ⟨place, hplace⟩ := ih rest.length hlt h rfl
        have hblank : ∀ d ∈ (first ++ [c]).getLast?, isBlank d = true := by simp [hc]
        have hwhole := hplace.append_left hblank
        rw [List.append_assoc, List.singleton_append] at hwhole
        exact ⟨_, hwhole⟩

/-- The words of a text are the runs without blanks that go on neither to the left nor to the right.
-/
theorem mem_words_iff {s word : Text} : word ∈ s.words ↔ ∃ place, s.HasWordAt word place := by
  constructor
  · exact exists_hasWordAt
  · rintro ⟨place, hplace⟩
    obtain ⟨before, after, -, -, -, hwords⟩ := hplace.exists_words_eq
    rw [hwords]
    exact List.mem_append_right _ List.mem_cons_self

/-- The words are listed as they stand in the text: before every place of a word there is one of each
word that is listed before it. -/
theorem exists_hasWordAt_lt {s first second : Text}
    (h : s.words.idxOf first < s.words.idxOf second) {place : Nat}
    (hsecond : s.HasWordAt second place) : ∃ earlier < place, s.HasWordAt first earlier := by
  obtain ⟨before, after, hs, rfl, hbefore, hwords⟩ := hsecond.exists_words_eq
  have hle : s.words.idxOf second ≤ before.words.length := by
    rw [hwords, List.idxOf_append]
    split
    case isTrue => exact List.idxOf_le_length
    case isFalse => simp
  have hfirst : first ∈ before.words := by
    by_cases hmem : first ∈ before.words
    · exact hmem
    · rw [hwords, List.idxOf_append, if_neg hmem, ← hwords] at h
      omega
  obtain ⟨earlier, hearlier⟩ := mem_words_iff.1 hfirst
  rw [hs]
  exact ⟨earlier, hearlier.lt_length, hearlier.append_right hbefore _⟩

/-! ## Words between separators -/

/-- What stands before the first separator is determined. -/
theorem eq_of_append_separator {separator : Char} {s t restS restT : Text} (hs : separator ∉ s)
    (ht : separator ∉ t) (h : s ++ separator :: restS = t ++ separator :: restT) : s = t := by
  have hcut : cut? separator (s ++ separator :: restS) = some (s, restS) :=
    cut?_eq_some_iff.2 ⟨rfl, hs⟩
  have hother : cut? separator (s ++ separator :: restS) = some (t, restT) :=
    cut?_eq_some_iff.2 ⟨h, ht⟩
  rw [hcut] at hother
  exact congrArg Prod.fst (Option.some.inj hother)

/-- A run between separators, in words that each have a separator before them and one behind the
last, is one of the words. -/
theorem mem_of_separated {separator : Char} {words : List Text} {run before after : Text}
    (hwords : ∀ word ∈ words, separator ∉ word) (hrun : separator ∉ run)
    (h : words.flatMap (separator :: ·) ++ [separator] =
      before ++ separator :: (run ++ separator :: after)) : run ∈ words := by
  induction words generalizing before with
  | nil =>
    have hlength := congrArg List.length h
    simp at hlength
    omega
  | cons word words ih =>
    have hword : separator ∉ word := hwords word List.mem_cons_self
    obtain ⟨later, hlater⟩ : ∃ later,
        words.flatMap (separator :: ·) ++ [separator] = separator :: later := by
      cases words <;> exact ⟨_, rfl⟩
    have hnext : ∀ before, separator :: later =
        before ++ separator :: (run ++ separator :: after) → run ∈ word :: words := by
      intro before hbefore
      exact List.mem_cons_of_mem word
        (ih (fun other hother => hwords other (List.mem_cons_of_mem word hother))
          (hlater.trans hbefore))
    rw [List.flatMap_cons, List.append_assoc, hlater] at h
    cases before with
    | nil =>
      have hrest : word ++ separator :: later = run ++ separator :: after :=
        List.tail_eq_of_cons_eq h
      rw [eq_of_append_separator hword hrun hrest]
      exact List.mem_cons_self
    | cons first before =>
      have hrest : word ++ separator :: later =
          before ++ separator :: (run ++ separator :: after) := List.tail_eq_of_cons_eq h
      -- either the word ends before the separator of the run, or at it
      rcases List.append_eq_append_iff.1 hrest with
        ⟨between, -, hbetween⟩ | ⟨between, hsplit, hbetween⟩
      · exact hnext between hbetween
      · cases between with
        | nil => exact hnext [] hbetween.symm
        | cons c between =>
          have hc : separator = c := List.head_eq_of_cons_eq hbetween
          refine absurd ?_ hword
          rw [hsplit, hc]
          exact List.mem_append_right _ List.mem_cons_self

/-- A word has a separator before it and behind it. -/
theorem separated_of_mem (separator : Char) {words : List Text} {word : Text} (h : word ∈ words) :
    ∃ before after, words.flatMap (separator :: ·) ++ [separator] =
      before ++ separator :: (word ++ separator :: after) := by
  obtain ⟨earlier, later, rfl⟩ := List.append_of_mem h
  obtain ⟨rest, hrest⟩ : ∃ rest,
      later.flatMap (separator :: ·) ++ [separator] = separator :: rest := by
    cases later <;> exact ⟨_, rfl⟩
  refine ⟨earlier.flatMap (separator :: ·), rest, ?_⟩
  rw [List.flatMap_append, List.flatMap_cons, List.append_assoc, List.append_assoc, hrest]
  rfl

theorem space_not_mem {s : Text} (h : ∀ c ∈ s, isBlank c = false) : ' ' ∉ s := by
  intro hmem
  have hspace := h ' ' hmem
  rw [isBlank_space] at hspace
  cases hspace

/-- A run without blanks is found between spaces exactly if it is a word of the text. -/
theorem includes_collapseBlanks {s run : Text} (hne : run ≠ [])
    (hrun : ∀ c ∈ run, isBlank c = false) :
    includes (' ' :: run ++ [' ']) (' ' :: s.collapseBlanks ++ [' ']) = true ↔ run ∈ s.words := by
  have hoccurs : ∀ before after : Text, before ++ (' ' :: run ++ [' ']) ++ after =
      before ++ ' ' :: (run ++ ' ' :: after) := by
    intro before after
    simp
  rw [includes_iff, collapseBlanks]
  cases hwords : s.words with
  | nil =>
    constructor
    · intro h
      obtain ⟨before, after, hfound⟩ := h
      have hlength := congrArg List.length hfound
      have hpos := List.length_pos_iff.2 hne
      simp [List.intercalate] at hlength
      omega
    · intro hmem
      cases hmem
  | cons first others =>
    have hjoined : ' ' :: [' '].intercalate (first :: others) ++ [' '] =
        (first :: others).flatMap (' ' :: ·) ++ [' '] := by
      rw [intercalate_cons, List.flatMap_cons]
      rfl
    rw [hjoined]
    constructor
    · intro h
      obtain ⟨before, after, hfound⟩ := h
      rw [hoccurs] at hfound
      apply mem_of_separated _ (space_not_mem hrun) hfound
      intro word hword
      exact space_not_mem (of_mem_words (hwords ▸ hword)).2
    · intro hmem
      obtain ⟨before, after, hseparated⟩ := separated_of_mem ' ' hmem
      exact ⟨before, after, hseparated.trans (hoccurs before after).symm⟩

end Text
end TreeSelect
