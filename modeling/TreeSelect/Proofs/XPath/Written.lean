import TreeSelect.Proofs.XPath.Depth

/-!
# Written text

`Written level closed signs s value` says that the rule `level` of the grammar reads the text `s`
whole and gives `value`, whatever stands behind it, as long as that can neither go on with an open
lexeme at the end of `s` (`Ends`) nor begins with one of `signs`, with which the rule could go on.

* `Continues` is the same for a further part of a rule, such as an operator and its right operand.
* `Written.many` is about a first part and further parts, and `Written.alone` about a first part
  that nothing follows.
* `Written.parse` reads a text that is written as an expression.
-/

namespace TreeSelect.XPath

open TreeSelect.XPath.Parser TreeSelect.XPath.Grammar

/-! ## Beginnings of texts -/

/-- The text does not begin with one of these characters. -/
def Avoids (signs : List Char) (s : Text) : Prop := ∀ c ∈ s.head?, c ∉ signs

theorem avoids_nil (signs : List Char) : Avoids signs [] := by
  intro c hc
  cases hc

theorem avoids_cons {signs : List Char} {c : Char} (h : c ∉ signs) (s : Text) :
    Avoids signs (c :: s) := by
  intro d hd
  cases hd
  exact h

theorem Avoids.mono {signs fewer : List Char} {s : Text} (h : Avoids signs s)
    (hsub : fewer ⊆ signs) : Avoids fewer s :=
  fun c hc hmem => h c hc (hsub hmem)

instance (signs : List Char) (s : Text) : Decidable (Avoids signs s) :=
  match s with
  | [] => isTrue (avoids_nil signs)
  | c :: rest =>
    if h : c ∈ signs then isFalse fun havoids => havoids c rfl h
    else isTrue (avoids_cons h rest)

/-- A text that avoids the signs does not begin with another that does not. -/
theorem Avoids.not_begins {signs : List Char} {s sign : Text} (h : Avoids signs s)
    (hsign : ¬ Avoids signs sign) : ¬ sign <+: s := by
  intro hcase
  rcases hcase with ⟨rest, rfl⟩
  refine hsign fun c hc => h c ?_
  rw [Option.mem_def] at hc ⊢
  rw [List.head?_append, hc, Option.some_or]

/-- A sign that begins a text begins a first part of it, if what comes behind that part begins with
no character of the sign's kind. -/
theorem prefix_of_head {kind : Char → Bool} {sign text rest : Text}
    (hsign : ∀ c ∈ sign, kind c = false) (hrest : ∀ c ∈ rest.head?, kind c = true)
    (h : sign <+: text ++ rest) : sign <+: text := by
  rcases List.prefix_or_prefix_of_prefix h (List.prefix_append text rest) with hprefix | hprefix
  · exact hprefix
  · obtain ⟨more, rfl⟩ := hprefix
    obtain ⟨after, hafter⟩ := h
    rw [List.append_assoc, List.append_cancel_left_eq] at hafter
    cases more with
    | nil => exact ⟨[], by simp⟩
    | cons c more =>
      have hkind : kind c = true := hrest c (by rw [← hafter]; rfl)
      rw [hsign c (List.mem_append_right _ List.mem_cons_self)] at hkind
      cases hkind

theorem refuses_exactly_of_avoids {signs : List Char} {expected s : Text} (h : Avoids signs s)
    (hexpected : ¬ Avoids signs expected) : (exactly expected).Refuses s :=
  refuses_exactly (h.not_begins hexpected)

/-- The text begins with a character that is neither a gap nor a minus sign. -/
def Starts (s : Text) : Prop := ∃ c rest, s = c :: rest ∧ c ≠ '-' ∧ isGap c = false

theorem Starts.append {s : Text} (h : Starts s) (t : Text) : Starts (s ++ t) := by
  obtain ⟨c, rest, rfl, hminus, hgap⟩ := h
  exact ⟨c, rest ++ t, rfl, hminus, hgap⟩

theorem Starts.skipGap {s : Text} (h : Starts s) : skipGap s = s := by
  obtain ⟨c, rest, rfl, -, hgap⟩ := h
  exact skipGap_cons_of_not_isGap hgap

theorem Starts.avoids_minus {s : Text} (h : Starts s) : Avoids ['-'] s := by
  obtain ⟨c, rest, rfl, hminus, -⟩ := h
  exact avoids_cons (by simpa using hminus) rest

/-- What follows neither lengthens a lexeme before it nor makes a call or an axis of a name. -/
structure Ends (s : Text) : Prop where
  lexeme : ∀ c ∈ s.head?, Lexeme.isNameChar c = false
  name : Avoids ['(', ':'] (skipGap s)

theorem ends_nil : Ends [] where
  lexeme := by
    intro c hc
    cases hc
  name := avoids_nil _

theorem ends_cons {c : Char} (hlexeme : Lexeme.isNameChar c = false) (hgap : isGap c = false)
    (hname : c ∉ ['(', ':']) (s : Text) : Ends (c :: s) where
  lexeme := by
    intro d hd
    cases hd
    exact hlexeme
  name := by
    rw [skipGap_cons_of_not_isGap hgap]
    exact avoids_cons hname s

/-- What may stand behind a text: nothing that begins with one of the signs, and where the text ends
with an open lexeme, nothing that goes on with it. -/
structure Follows (closed : Bool) (signs : List Char) (rest : Text) : Prop where
  ends : closed = false → Ends rest
  avoids : Avoids signs (skipGap rest)

theorem Follows.mono {closed : Bool} {signs fewer : List Char} {rest : Text}
    (h : Follows closed signs rest) (hsub : fewer ⊆ signs) : Follows closed fewer rest :=
  ⟨h.ends, h.avoids.mono hsub⟩

/-! ## First parts and further parts -/

variable {α γ δ : Type}

/-- The rule reads the whole text, whatever stands behind it.  A text is closed when it ends with a
bracket or a quote mark. -/
structure Written (level : Parser α) (closed : Bool) (signs : List Char) (s : Text) (value : α) :
    Prop where
  starts : Starts s
  reads : ∀ rest, Follows closed signs rest → level.ReadsUpTo (s ++ rest) value rest

theorem Written.opened {level : Parser α} {closed : Bool} {signs : List Char} {s : Text} {value : α}
    (h : Written level closed signs s value) : Written level false signs s value where
  starts := h.starts
  reads := fun rest hrest => h.reads rest ⟨fun _ => hrest.ends rfl, hrest.avoids⟩

theorem Written.rule {level : Parser α} {closed : Bool} {signs : List Char} {s : Text} {value : α}
    (h : Written level closed signs s value) : Written (Parser.rule level) closed signs s value where
  starts := h.starts
  reads := fun rest hrest => (h.reads rest hrest).rule

/-- The text is a further part, such as an operator and its right operand, behind a part that may
not be followed by `signs`. -/
structure Continues (part : Parser γ) (signs : List Char) (s : Text) (value : γ) : Prop where
  follows : ∀ rest, Follows false signs (s ++ rest)
  shorter : ∀ rest, rest.length < (skipGap (s ++ rest)).length
  reads : ∀ rest, Follows false signs rest → part.ReadsUpTo (skipGap (s ++ rest)) value rest

section Parts

variable {level : Parser α} {part : Parser γ} {below signs : List Char} {parts : List (Text × γ)}
  {rest : Text}

/-- Further parts may stand where the text behind them may. -/
theorem follows_parts (hparts : ∀ p ∈ parts, Continues part below p.1 p.2)
    (hrest : Follows false below rest) : Follows false below (parts.flatMap (·.1) ++ rest) := by
  cases parts with
  | nil => exact hrest
  | cons p parts =>
    rw [List.flatMap_cons, List.append_assoc]
    exact (hparts p List.mem_cons_self).follows _

/-- Further parts are read one after another. -/
theorem repeats_parts (hparts : ∀ p ∈ parts, Continues part below p.1 p.2)
    (hrest : Follows false below rest) (hstop : part.Refuses (skipGap rest)) {left : Text}
    (hleft : left = parts.flatMap (·.1) ++ rest ∨ left = skipGap (parts.flatMap (·.1) ++ rest)) :
    ∃ last, (last = rest ∨ last = skipGap rest) ∧ Repeats part left (parts.map (·.2)) last := by
  have hgap : skipGap left = skipGap (parts.flatMap (·.1) ++ rest) := by
    rcases hleft with rfl | rfl
    · rfl
    · exact skipGap_skipGap _
  induction parts generalizing left with
  | nil =>
    refine ⟨left, hleft, .stop ?_⟩
    rw [hgap]
    exact hstop
  | cons p parts ih =>
    have hpart := hparts p List.mem_cons_self
    have hlater := fun q hq => hparts q (List.mem_cons_of_mem p hq)
    obtain ⟨middle, hmiddle, hreads⟩ := hpart.reads _ (follows_parts hlater hrest)
    have hshorter := hpart.shorter (parts.flatMap (·.1) ++ rest)
    rw [List.flatMap_cons, List.append_assoc] at hgap
    rw [← hgap] at hreads hshorter
    have hmiddleGap : skipGap middle = skipGap (parts.flatMap (·.1) ++ rest) := by
      rcases hmiddle with rfl | rfl
      · rfl
      · exact skipGap_skipGap _
    have hmiddleLe : middle.length ≤ (parts.flatMap (·.1) ++ rest).length := by
      rcases hmiddle with rfl | rfl
      · exact Nat.le_refl _
      · exact length_skipGap_le _
    obtain ⟨last, hlast, hrepeats⟩ := ih hlater hmiddle hmiddleGap
    refine ⟨last, hlast, .next hreads ?_ hrepeats⟩
    have hleftLe := length_skipGap_le left
    omega

/-- A first part and further parts are written together. -/
theorem Written.many (hsub : below ⊆ signs) (hstop : ∀ s, Avoids signs s → part.Refuses s)
    {s : Text} {a : α} (hfirst : Written level false below s a)
    (hparts : ∀ p ∈ parts, Continues part below p.1 p.2) (f : α → List γ → δ) :
    Written (do
        let first ← level
        blanks
        let others ← Parser.many part
        return f first others)
      false signs (s ++ parts.flatMap (·.1)) (f a (parts.map (·.2))) where
  starts := hfirst.starts.append _
  reads := by
    intro rest hrest
    obtain ⟨last, hlast, hrepeats⟩ :=
      repeats_parts hparts (hrest.mono hsub) (hstop _ hrest.avoids) (.inr rfl)
    have hmany := reads_many hrepeats (skipGap_skipGap _)
    have hlevel := hfirst.reads _ (follows_parts hparts (hrest.mono hsub))
    rw [List.append_assoc]
    refine ⟨last, hlast, ?_⟩
    exact hlevel.bind_blanks (hmany.bind (reads_pure (f a (parts.map (·.2))) last))

/-- A first part alone is written. -/
theorem Written.alone {closed : Bool} (hsub : below ⊆ signs)
    (hstop : ∀ s, Avoids signs s → part.Refuses s) {s : Text} {a : α}
    (hfirst : Written level closed below s a) (f : α → List γ → δ) :
    Written (do
        let first ← level
        blanks
        let others ← Parser.many part
        return f first others)
      closed signs s (f a []) where
  starts := hfirst.starts
  reads := by
    intro rest hrest
    have hnone : part.Refuses (skipGap (skipGap rest)) := by
      rw [skipGap_skipGap]
      exact hstop _ hrest.avoids
    have hmany := reads_many (.stop hnone) (skipGap_skipGap rest)
    refine ⟨skipGap rest, .inr rfl, ?_⟩
    exact (hfirst.reads rest (hrest.mono hsub)).bind_blanks (hmany.bind (reads_pure (f a []) _))

/-- A sign, blanks and a text are a further part. -/
theorem Written.continues {level : Parser γ} {c : Char} {gap s : Text} {value : γ}
    (h : Written level false below s value) (hgap : ∀ d ∈ gap, isGap d = true)
    (hlexeme : Lexeme.isNameChar c = false) (hsign : isGap c = false) (hname : c ∉ ['(', ':'])
    (hbelow : c ∉ below) :
    Continues (do let _ ← exactly [c]; blanks; level) below (c :: (gap ++ s)) value := by
  have hskip : ∀ rest, skipGap (c :: (gap ++ s) ++ rest) = [c] ++ (gap ++ (s ++ rest)) := by
    intro rest
    rw [List.cons_append, skipGap_cons_of_not_isGap hsign, List.append_assoc]
    rfl
  constructor
  case follows =>
    intro rest
    refine ⟨fun _ => ends_cons hlexeme hsign hname _, ?_⟩
    rw [hskip]
    exact avoids_cons hbelow _
  case shorter =>
    intro rest
    rw [hskip]
    simp only [List.length_append, List.length_cons]
    omega
  case reads =>
    intro rest hrest
    have hstarts := h.starts.append rest
    have hblanks : skipGap (gap ++ (s ++ rest)) = s ++ rest := by
      rw [skipGap_append_of_isGap hgap, hstarts.skipGap]
    have hreads := h.reads rest hrest
    rw [← hblanks] at hreads
    rw [hskip]
    exact (reads_exactly [c] _).upTo.bind_blanks_upTo hreads

end Parts

/-- A text that is written as an expression is one. -/
theorem Written.parse {closed : Bool} {signs : List Char}
    {s : Text} {e : Expr} (h : Written expr closed signs s e) :
    parse s = .ok e := by
  have hexpr := h.reads [] ⟨fun _ => ends_nil, avoids_nil _⟩
  have hend : atEnd.Reads [] () [] := Reads.rule fun offset => ⟨offset, 0, rfl⟩
  rw [List.append_nil] at hexpr
  refine parse_eq_ok (Reads.rule ?_)
  have hblanks := reads_blanks s
  rw [h.starts.skipGap] at hblanks
  exact hblanks.bind (hexpr.bind_blanks (hend.bind (reads_pure e [])))

end TreeSelect.XPath
