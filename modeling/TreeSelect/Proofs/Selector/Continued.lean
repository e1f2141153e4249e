import TreeSelect.Proofs.Selector.ClassNames

/-!
# Text behind a segment

A segment takes the longest run of each piece from the beginning of a text.  With more text behind
it takes the same, unless the new text goes on with the last piece or closes a bracket that nothing
has closed before.

* `scan_append` and `scan_append_child`: the pieces of a text with more text behind it.
* `read_eq_ok_iff`: what a segment is made of, and where it stands.
* `read_append` and `read_append_child`: the segment of a text with more text behind it.
* `read_stuck`: the characters that nothing can take up.
-/

namespace TreeSelect

namespace Text

/-! ## Blanks at the beginning -/

theorem exists_of_not_blank {s : Text} (hs : s.all isBlank = false) :
    ∃ first rest, s.dropWhile isBlank = first :: rest ∧ isBlank first = false := by
  induction s with
  | nil => simp at hs
  | cons c s ih =>
    by_cases hc : isBlank c = true
    · simpa [hc] using ih (by simpa [hc] using hs)
    · exact ⟨c, s, by simp [hc], by simpa using hc⟩

/-- The blanks at the beginning of a text end at its first character that is not blank, whatever
follows. -/
theorem blanks_append {s : Text} (hs : s.all isBlank = false) (t : Text) :
    (s ++ t).takeWhile isBlank = s.takeWhile isBlank ∧
      (s ++ t).dropWhile isBlank = s.dropWhile isBlank ++ t := by
  induction s with
  | nil => simp at hs
  | cons c s ih =>
    by_cases hc : isBlank c = true
    · simpa [hc] using ih (by simpa [hc] using hs)
    · simp [hc]

end Text

namespace Pieces

/-! ## One piece at a time -/

theorem takeWhile_append_of_head {accepts : Char → Bool} {t : Text}
    (ht : ∀ c ∈ t.head?, accepts c = false) (s : Text) :
    (s ++ t).takeWhile accepts = s.takeWhile accepts := by
  induction s with
  | nil => cases t <;> simp_all
  | cons c s ih => simp [List.takeWhile_cons, ih]

theorem dropWhile_append_of_head {accepts : Char → Bool} {t : Text}
    (ht : ∀ c ∈ t.head?, accepts c = false) (s : Text) :
    (s ++ t).dropWhile accepts = s.dropWhile accepts ++ t := by
  induction s with
  | nil => cases t <;> simp_all
  | cons c s ih =>
    rw [List.cons_append, List.dropWhile_cons, List.dropWhile_cons, ih]
    split <;> rfl

theorem takeSigned_append_of_head {sign : Char} {accepts : Char → Bool} {t : Text}
    (ht : ∀ c ∈ t.head?, c ≠ sign ∧ accepts c = false) (s : Text) :
    takeSigned sign accepts (s ++ t) =
      ((takeSigned sign accepts s).1, (takeSigned sign accepts s).2 ++ t) := by
  have haccepts : ∀ c ∈ t.head?, accepts c = false := fun c hc => (ht c hc).2
  cases s with
  | nil => cases t <;> simp_all [takeSigned]
  | cons c s =>
    rw [List.cons_append, takeSigned, takeSigned, takeWhile_append_of_head haccepts,
      dropWhile_append_of_head haccepts]
    split <;> rfl

/-- Without an opening bracket at the beginning there are no groups. -/
theorem takeGroups_of_head {s : Text} (h : '[' ∉ s.head?) : takeGroups s = ([], s) := by
  rw [takeGroups.eq_def]
  split
  · simp at h
  · rfl

theorem takeGroups_append_of_head {s t : Text} (ht : '[' ∉ t.head?)
    (hopen : '[' ∉ (takeGroups s).2.head?) :
    takeGroups (s ++ t) = ((takeGroups s).1, (takeGroups s).2 ++ t) := by
  fun_induction takeGroups s with
  | case1 rest hcut => simp at hopen
  | case2 rest inside after hcut ih =>
    obtain ⟨hrest, hinside⟩ := Text.cut?_eq_some_iff.1 hcut
    have hnext : Text.cut? ']' (rest ++ t) = some (inside, after ++ t) :=
      Text.cut?_eq_some_iff.2 ⟨by simp [hrest], hinside⟩
    rw [List.cons_append, takeGroups.eq_def]
    simp only
    split
    case h_1 hnone => simp [hnext] at hnone
    case h_2 inside' after' hsome =>
      rw [hnext] at hsome
      cases hsome
      rw [ih hopen]
  | case3 s hs =>
    cases s with
    | nil => exact takeGroups_of_head ht
    | cons c s => exact takeGroups_of_head (by simpa using hopen)

theorem takeArgument_append_of_some {nested : Bool} {s argument after : Text}
    (h : takeArgument nested s = some (argument, after)) (t : Text) :
    takeArgument nested (s ++ t) = some (argument, after ++ t) := by
  induction s generalizing nested argument with
  | nil => simp [takeArgument] at h
  | cons c s ih =>
    have hlater : ∀ {inner : Bool} {argument : Text},
        (takeArgument inner s).map (fun r => (c :: r.1, r.2)) = some (argument, after) →
          (takeArgument inner (s ++ t)).map (fun r => (c :: r.1, r.2)) =
            some (argument, after ++ t) := by
      intro inner argument hmap
      obtain ⟨⟨rest, _⟩, hrest, hpair⟩ := Option.map_eq_some_iff.1 hmap
      cases hpair
      simp [ih hrest]
    rw [takeArgument] at h
    rw [List.cons_append, takeArgument]
    split at h
    case isTrue hclose =>
      rw [if_pos hclose]
      split at h
      case isTrue hnested => rw [if_pos hnested, hlater h]
      case isFalse hnested =>
        cases h
        rw [if_neg hnested]
    case isFalse hclose =>
      rw [if_neg hclose]
      split at h
      case isTrue hparenthesis =>
        rw [if_pos hparenthesis]
        split at h
        case isTrue => cases h
        case isFalse hnested => rw [if_neg hnested, hlater h]
      case isFalse hparenthesis => rw [if_neg hparenthesis, hlater h]

/-- Without a parenthesis at the beginning there is no argument. -/
theorem argument?_of_head {s : Text} (h : '(' ∉ s.head?) : argument? s = none := by
  unfold argument?
  split
  · simp at h
  · rfl

theorem argument?_append_of_some {s argument after : Text}
    (h : argument? s = some (argument, after)) (t : Text) :
    argument? (s ++ t) = some (argument, after ++ t) := by
  unfold argument? at h
  split at h
  · exact takeArgument_append_of_some h t
  · cases h

theorem takePseudo_append_of_head {s t : Text}
    (ht : ∀ c ∈ t.head?, c ≠ ':' ∧ c ≠ '(' ∧ isNameChar c = false)
    (hopen : '(' ∉ (takePseudo s).2.head?) :
    takePseudo (s ++ t) = ((takePseudo s).1, (takePseudo s).2 ++ t) := by
  have hstops : ∀ c ∈ t.head?, c ≠ ':' ∧ isNameChar c = false :=
    fun c hc => ⟨(ht c hc).1, (ht c hc).2.2⟩
  have hsigned := takeSigned_append_of_head hstops s
  unfold takePseudo at hopen ⊢
  rw [hsigned]
  cases htaken : takeSigned ':' isNameChar s with
  | mk taken rest =>
    rw [htaken] at hopen
    cases taken with
    | nil => rfl
    | cons sign name =>
      simp only at hopen ⊢
      cases hargument : argument? rest with
      | none =>
        rw [hargument] at hopen
        have hnone : argument? (rest ++ t) = none := by
          apply argument?_of_head
          cases rest with
          | nil => exact fun hmem => (ht '(' hmem).2.1 rfl
          | cons c rest => simpa using hopen
        rw [hnone]
      | some taken => rw [argument?_append_of_some hargument]

/-- A child sign that blanks separate from the text before it belongs to that text. -/
theorem takeChild_append_of_blank {s : Text} (hs : ∀ c ∈ s, Text.isBlank c = true) (t : Text) :
    takeChild (s ++ t) =
      if (takeChild t).1 = [] then ([], s ++ t) else (s ++ (takeChild t).1, (takeChild t).2) := by
  unfold takeChild
  rw [List.dropWhile_append_of_pos hs, List.takeWhile_append_of_pos hs]
  split <;> simp

/-- Behind something that is not blank, the child sign has been looked for already. -/
theorem takeChild_append_of_not_blank {s : Text} (hs : s.all Text.isBlank = false) (t : Text) :
    takeChild (s ++ t) = ((takeChild s).1, (takeChild s).2 ++ t) := by
  obtain ⟨first, rest, hdrop, -⟩ := Text.exists_of_not_blank hs
  obtain ⟨htake, happend⟩ := Text.blanks_append hs t
  unfold takeChild
  rw [happend, htake, hdrop]
  by_cases hfirst : first = '>'
  · simp [hfirst]
  · simp [hfirst]

/-! ## All pieces -/

/-- Whether a text begins with a bracket that is no beginning of a piece: a parenthesis, or a square
bracket that nothing closes. -/
def BeginsOpen : Text → Prop
  | '(' :: _ => True
  | '[' :: rest => ']' ∉ rest
  | _ => False

theorem BeginsOpen.head {s : Text} (h : BeginsOpen s) :
    ∃ c rest, s = c :: rest ∧ (c = '(' ∨ c = '[') := by
  unfold BeginsOpen at h
  split at h
  case h_1 rest => exact ⟨'(', rest, rfl, .inl rfl⟩
  case h_2 rest => exact ⟨'[', rest, rfl, .inr rfl⟩
  case h_3 => exact h.elim

theorem not_beginsOpen_of_blank {s : Text} (hs : s.all Text.isBlank = true) : ¬ BeginsOpen s := by
  intro hopen
  obtain ⟨c, rest, rfl, hc⟩ := hopen.head
  have hblank : Text.isBlank c = true := List.all_eq_true.1 hs c List.mem_cons_self
  rcases hc with rfl | rfl <;> exact absurd hblank (by decide)

/-- Whether no piece goes on with the first character of the text. -/
def Stops (t : Text) : Prop :=
  ∀ c ∈ t.head?, isTagChar c = false ∧ isClassChar c = false ∧ c ∉ ['#', '[', ':', '(']

theorem stops_of_blank {blank : Char} (h : Text.isBlank blank = true) (rest : Text) :
    Stops (blank :: rest) := by
  have hname : isNameChar blank = false := by
    by_cases hname : isNameChar blank = true
    · rw [isBlank_of_isNameChar hname] at h
      cases h
    · simpa using hname
  have hother : ∀ c : Char, Text.isBlank c = false → blank ≠ c := by
    intro c hc hcase
    rw [← hcase, h] at hc
    cases hc
  intro c hc
  cases hc
  have hstar := hother '*' (by decide)
  have hdot := hother '.' (by decide)
  refine ⟨by simp [isTagChar, hname, hstar], by simp [isClassChar, hname, hdot], ?_⟩
  simp [hother '#' (by decide), hother '[' (by decide), hother ':' (by decide),
    hother '(' (by decide)]

theorem stops_of_sign (rest : Text) : Stops ('>' :: rest) := by
  intro c hc
  cases hc
  exact ⟨isTagChar_sign (by decide) (by decide), isClassChar_sign (by decide) (by decide),
    by decide⟩

theorem takeSigned_of_head {sign : Char} {s : Text} (h : sign ∉ s.head?) (accepts : Char → Bool) :
    takeSigned sign accepts s = ([], s) := by
  cases s with
  | nil => rfl
  | cons c s => rw [takeSigned, if_neg fun hcase => h (by simp [hcase.1])]

theorem takePseudo_of_head {s : Text} (h : ':' ∉ s.head?) : takePseudo s = (none, s) := by
  rw [takePseudo, takeSigned_of_head h]

theorem takeChild_of_head {s : Text} (h : ∀ c ∈ s.head?, Text.isBlank c = false ∧ c ≠ '>') :
    takeChild s = ([], s) := by
  cases s with
  | nil => rfl
  | cons c s =>
    obtain ⟨hblank, hsign⟩ := h c rfl
    simp [takeChild, hblank, hsign]

/-- A bracket that is left where a group could begin is closed nowhere. -/
theorem not_mem_of_takeGroups {s groups rest : Text} (h : takeGroups s = (groups, '[' :: rest)) :
    ']' ∉ rest := by
  fun_induction takeGroups s generalizing groups with
  | case1 rest' hcut =>
    cases h
    intro hmem
    obtain ⟨before, after, hsplit, hbefore⟩ := List.eq_append_cons_of_mem hmem
    rw [Text.cut?_eq_some_iff.2 ⟨hsplit, hbefore⟩] at hcut
    cases hcut
  | case2 rest' inside after hcut ih => exact ih (Prod.ext rfl (Prod.mk.inj h).2)
  | case3 s hs =>
    obtain ⟨-, rfl⟩ := Prod.mk.inj h
    exact absurd rfl (hs rest)

/-- The pieces at the beginning of a text but for the child sign, and the text after them. -/
def bare (s : Text) : Pieces × Text :=
  let tag := s.takeWhile isTagChar
  let (id, s) := takeSigned '#' isNameChar (s.dropWhile isTagChar)
  let (classes, s) := takeSigned '.' isClassChar s
  let (groups, s) := takeGroups s
  let (pseudo, s) := takePseudo s
  ({ tag, id, classes, groups, pseudo, child := [] }, s)

theorem scan_eq_bare (s : Text) :
    scan s = ({ (bare s).1 with child := (takeChild (bare s).2).1 }, (takeChild (bare s).2).2) :=
  rfl

theorem bare_append {s t : Text} (hopen : ¬ BeginsOpen (bare s).2) (ht : Stops t) :
    bare (s ++ t) = ((bare s).1, (bare s).2 ++ t) := by
  have hname : ∀ c, isTagChar c = false → isNameChar c = false := by
    intro c hc
    simpa [isTagChar] using (Bool.or_eq_false_iff.1 hc).1
  have htag : ∀ c ∈ t.head?, isTagChar c = false := fun c hc => (ht c hc).1
  have hid : ∀ c ∈ t.head?, c ≠ '#' ∧ isNameChar c = false := by
    intro c hc
    obtain ⟨hc, -, hsign⟩ := ht c hc
    exact ⟨by simp at hsign; exact hsign.1, hname c hc⟩
  have hclasses : ∀ c ∈ t.head?, c ≠ '.' ∧ isClassChar c = false := by
    intro c hc
    obtain ⟨-, hclass, -⟩ := ht c hc
    exact ⟨by simpa using (Bool.or_eq_false_iff.1 hclass).2, hclass⟩
  have hgroups : '[' ∉ t.head? := by
    intro hmem
    exact absurd (ht '[' hmem).2.2 (by simp)
  have hpseudo : ∀ c ∈ t.head?, c ≠ ':' ∧ c ≠ '(' ∧ isNameChar c = false := by
    intro c hc
    obtain ⟨hc, -, hsign⟩ := ht c hc
    simp at hsign
    exact ⟨hsign.2.2.1, hsign.2.2.2, hname c hc⟩
  -- what is left behind the groups or the pseudo-class begins with no bracket
  simp only [bare] at hopen ⊢
  rw [takeWhile_append_of_head htag, dropWhile_append_of_head htag, takeSigned_append_of_head hid,
    takeSigned_append_of_head hclasses]
  generalize (takeSigned '.' isClassChar (takeSigned '#' isNameChar
    (s.dropWhile isTagChar)).2).2 = rest at hopen ⊢
  have hclosed : '[' ∉ (takeGroups rest).2.head? := by
    intro hmem
    obtain ⟨more, hmore⟩ : ∃ more, (takeGroups rest).2 = '[' :: more := by
      cases hleft : (takeGroups rest).2 with
      | nil => simp [hleft] at hmem
      | cons c more => exact ⟨more, by simpa [hleft] using hmem⟩
    rw [hmore, takePseudo_of_head (by simp)] at hopen
    exact hopen (not_mem_of_takeGroups (Prod.ext rfl hmore))
  rw [takeGroups_append_of_head hgroups hclosed, takePseudo_append_of_head hpseudo]
  intro hmem
  cases hleft : (takePseudo (takeGroups rest).2).2 with
  | nil => simp [hleft] at hmem
  | cons c more =>
    rw [hleft] at hopen hmem
    cases hmem
    exact hopen trivial

theorem not_beginsOpen_bare {s : Text} (h : ¬ BeginsOpen (scan s).2) : ¬ BeginsOpen (bare s).2 := by
  intro hopen
  have hchild : takeChild (bare s).2 = ([], (bare s).2) := by
    obtain ⟨c, rest, hs, hc⟩ := hopen.head
    rw [hs]
    apply takeChild_of_head
    intro d hd
    cases hd
    rcases hc with rfl | rfl <;> decide
  rw [scan_eq_bare, hchild] at h
  exact h hopen

/-- Pieces are taken as before with more text behind them, unless the text ends in blanks and the
child sign follows. -/
theorem scan_append {s t after : Text} {pieces : Pieces} (h : scan s = (pieces, after))
    (hopen : ¬ BeginsOpen after) (ht : Stops t)
    (hchild : after.all Text.isBlank = false ∨ (takeChild t).1 = []) :
    scan (s ++ t) = (pieces, after ++ t) := by
  have hbare := bare_append (not_beginsOpen_bare (s := s) (by rwa [h])) ht
  rw [scan_eq_bare] at h ⊢
  rw [hbare]
  obtain ⟨rfl, rfl⟩ := Prod.mk.inj h
  by_cases hblank : (bare s).2.all Text.isBlank = true
  · have hleft := takeChild_append (bare s).2
    have hnone : takeChild (bare s).2 = ([], (bare s).2) := by
      have happend := takeChild_append_of_blank (List.all_eq_true.1 hblank) []
      simpa [takeChild] using happend
    rw [hnone] at hchild ⊢
    have hsign := hchild.resolve_left (by simp [hblank])
    simp [takeChild_append_of_blank (List.all_eq_true.1 hblank), hsign]
  · rw [takeChild_append_of_not_blank (by simpa using hblank)]

/-- Pieces that only blanks follow get a child sign that stands behind the blanks. -/
theorem scan_append_child {s t after : Text} {pieces : Pieces} (h : scan s = (pieces, after))
    (hafter : after.all Text.isBlank = true) (hpieces : pieces.child = []) (ht : Stops t)
    (hchild : (takeChild t).1 ≠ []) :
    scan (s ++ t) = ({ pieces with child := after ++ (takeChild t).1 }, (takeChild t).2) := by
  have hbare := bare_append
    (not_beginsOpen_bare (s := s) (by rw [h]; exact not_beginsOpen_of_blank hafter)) ht
  rw [scan_eq_bare] at h ⊢
  rw [hbare]
  obtain ⟨rfl, rfl⟩ := Prod.mk.inj h
  have hleft := takeChild_append (bare s).2
  have hnone : (takeChild (bare s).2).1 = [] := hpieces
  rw [hnone, List.nil_append] at hleft
  rw [hleft] at hafter ⊢
  simp [takeChild_append_of_blank (List.all_eq_true.1 hafter), hchild]

/-- Whether nothing that a segment is made of begins with this character and the text behind it. -/
structure Stuck (c : Char) (rest : Text) : Prop where
  tag : isTagChar c = false
  blank : Text.isBlank c = false
  sign : c ∉ ['#', '.', ':', '>']
  open_bracket : c = '[' → ']' ∉ rest

theorem BeginsOpen.stuck {s : Text} (h : BeginsOpen s) : ∃ c rest, s = c :: rest ∧ Stuck c rest := by
  unfold BeginsOpen at h
  split at h
  case h_1 rest =>
    refine ⟨'(', rest, rfl, isTagChar_sign (by decide) (by decide), by decide, by decide, ?_⟩
    intro hcase
    exact absurd hcase (by decide)
  case h_2 rest =>
    exact ⟨'[', rest, rfl, isTagChar_sign (by decide) (by decide), by decide, by decide,
      fun _ => h⟩
  case h_3 => exact h.elim

theorem takeGroups_unclosed {rest : Text} (h : ']' ∉ rest) :
    takeGroups ('[' :: rest) = ([], '[' :: rest) := by
  rw [takeGroups.eq_def]
  simp only
  split
  · rfl
  case h_2 inside after hcut =>
    rw [(Text.cut?_eq_some_iff.1 hcut).1] at h
    simp at h

theorem scan_stuck {c : Char} {rest : Text} (h : Stuck c rest) :
    scan (c :: rest) = (⟨[], [], [], [], none, []⟩, c :: rest) := by
  obtain ⟨htag, hblank, hsign, hbracket⟩ := h
  simp only [List.mem_cons, List.not_mem_nil, or_false, not_or] at hsign
  obtain ⟨hid, hclasses, hpseudo, hchild⟩ := hsign
  have hgroups : takeGroups (c :: rest) = ([], c :: rest) := by
    by_cases hc : c = '['
    · rw [hc, takeGroups_unclosed (hbracket hc)]
    · exact takeGroups_of_head (by simpa using hc)
  simp only [scan, List.takeWhile_cons, List.dropWhile_cons, htag]
  rw [if_neg (by simp), if_neg (by simp), takeSigned_of_head (by simpa using hid),
    takeSigned_of_head (by simpa using hclasses), hgroups, takePseudo_of_head (by simpa using hpseudo),
    takeChild_of_head (by simpa using ⟨hblank, hchild⟩)]

/-- Pieces that begin with the child sign describe nothing. -/
theorem describes_scan_of_sign (rest : Text) : (scan ('>' :: rest)).1.describes = false := by
  have htag : isTagChar '>' = false := isTagChar_sign (by decide) (by decide)
  have hgroups : takeGroups ('>' :: rest) = ([], '>' :: rest) := takeGroups_of_head (by simp)
  simp [scan, htag, takeSigned_of_head, hgroups, takePseudo_of_head, describes]

/-- Pieces that describe something are not empty. -/
theorem text_ne_nil {pieces : Pieces} (h : pieces.describes = true) : pieces.text ≠ [] := by
  obtain ⟨tag, id, classes, groups, pseudo, child⟩ := pieces
  intro hnil
  simp only [text, List.append_eq_nil_iff] at hnil
  obtain ⟨⟨⟨⟨⟨rfl, rfl⟩, rfl⟩, rfl⟩, hpseudo⟩, -⟩ := hnil
  cases pseudo with
  | none => simp [describes] at h
  | some pseudo =>
    obtain ⟨name, argument⟩ := pseudo
    cases argument <;> simp [pseudoText] at hpseudo

end Pieces

namespace Segment

/-! ## What a segment is made of -/

/-- The conditions of attribute groups, if there are groups. -/
def ConditionsOf (groups : Text) (attributes : Option AttributeConditions) : Prop :=
  groups = [] ∧ attributes = none ∨
    groups ≠ [] ∧ ∃ conditions, AttributeConditions.ofGroups groups = .ok conditions ∧
      attributes = some conditions

/-- The segment that pieces make when their groups hold the given conditions. -/
def made (start : Nat) (pieces : Pieces) (attributes : Option AttributeConditions) : Segment where
  tag := if pieces.tag.isEmpty then ['*'] else pieces.tag
  id := if pieces.id.isEmpty then none else some (pieces.id.drop 1)
  classes := classesOf pieces.classes
  attributes := attributes
  pseudo := pieces.pseudo.map fun (name, argument) => ⟨name.lower, argument.map Text.trim⟩
  relation := if pieces.child.isEmpty then .descendant else .child
  matched := pieces.text
  span := ⟨start, start + pieces.text.bytes⟩

theorem child_eq_nil_of_made {start : Nat} {pieces : Pieces}
    {attributes : Option AttributeConditions}
    (h : (made start pieces attributes).relation = .descendant) : pieces.child = [] := by
  by_cases hchild : pieces.child = []
  · exact hchild
  · simp [made, hchild] at h

/-- Only the attribute groups can be at fault. -/
theorem ofPieces_eq_ok {selector : Text} {start : Nat} {pieces : Pieces} {segment : Segment} :
    ofPieces selector start pieces = .ok segment ↔
      ∃ attributes, ConditionsOf pieces.groups attributes ∧
        segment = made start pieces attributes := by
  rw [ofPieces]
  split
  case isTrue hempty =>
    have hnil : pieces.groups = [] := List.isEmpty_iff.1 hempty
    constructor
    · intro h
      cases h
      exact ⟨none, .inl ⟨hnil, rfl⟩, rfl⟩
    · intro hcase
      rcases hcase with ⟨attributes, ⟨-, rfl⟩ | ⟨hne, -⟩, rfl⟩
      · rfl
      · exact absurd hnil hne
  case isFalse hempty =>
    have hne : pieces.groups ≠ [] := fun hnil => hempty (List.isEmpty_iff.2 hnil)
    constructor
    · intro h
      split at h
      case h_1 conditions hconditions =>
        cases h
        exact ⟨some conditions, .inr ⟨hne, conditions, hconditions, rfl⟩, rfl⟩
      case h_2 => cases h
    · intro hcase
      rcases hcase with ⟨attributes, ⟨hnil, -⟩ | ⟨-, conditions, hconditions, rfl⟩, rfl⟩
      · exact absurd hnil hne
      · rw [hconditions]
        rfl

/-- What is at fault is a condition in the attribute groups, and it is reported where they begin. -/
theorem ofPieces_eq_error {selector : Text} {start : Nat} {pieces : Pieces} {error : SelectorError}
    (h : ofPieces selector start pieces = .error error) :
    pieces.groups ≠ [] ∧ ∃ condition,
      AttributeConditions.ofGroups pieces.groups = .error condition ∧
        error = .invalid selector (start + Text.bytes (pieces.tag ++ pieces.id ++ pieces.classes))
          (.attribute condition) := by
  rw [ofPieces] at h
  split at h
  case isTrue => cases h
  case isFalse hempty =>
    refine ⟨fun hnil => hempty (List.isEmpty_iff.2 hnil), ?_⟩
    split at h
    case h_1 => cases h
    case h_2 condition hcondition =>
      cases h
      exact ⟨condition, hcondition, rfl⟩

/-- A segment is made of the pieces behind the blanks at the beginning, and what they leave of the
text comes after it. -/
theorem read_eq_ok_iff {selector : Text} {offset : Nat} {rest after : Text} {segment : Segment} :
    read selector offset rest = .ok (segment, after) ↔
      ∃ pieces attributes,
        Pieces.scan (rest.dropWhile Text.isBlank) = (pieces, after) ∧ pieces.describes = true ∧
          ConditionsOf pieces.groups attributes ∧
            segment = made (offset + Text.bytes (rest.takeWhile Text.isBlank)) pieces attributes := by
  constructor
  · intro h
    simp only [read] at h
    split at h
    · cases h
    case h_2 first input hinput =>
      split at h
      · cases h
      · split at h
        · cases h
        case isFalse hdescribes =>
          obtain ⟨_, hpieces, hpair⟩ := Attempt.map_eq_ok.1 h
          cases hpair
          obtain ⟨attributes, hattributes, rfl⟩ := ofPieces_eq_ok.1 hpieces
          exact ⟨_, attributes, by rw [hinput], by simpa using hdescribes, hattributes, rfl⟩
  · rintro ⟨pieces, attributes, hscan, hdescribes, hattributes, rfl⟩
    have htext := Pieces.text_append_rest (rest.dropWhile Text.isBlank)
    rw [hscan] at htext
    have hne := Pieces.text_ne_nil hdescribes
    have hpieces : ∀ start, ofPieces selector start pieces = .ok (made start pieces attributes) :=
      fun start => ofPieces_eq_ok.2 ⟨attributes, hattributes, rfl⟩
    simp only [read]
    cases hinput : rest.dropWhile Text.isBlank with
    | nil =>
      rw [hinput] at htext
      exact absurd (List.append_eq_nil_iff.1 htext).1 hne
    | cons first input =>
      rw [hinput] at hscan
      simp [hscan, hne, hdescribes, hpieces, Except.map]

/-- The first segment is read at the beginning. -/
theorem parse_eq_ok_iff {s : Text} {segment : Segment} :
    parse s = .ok segment ↔ ∃ after, read s 0 s = .ok (segment, after) := by
  rw [parse, parseAt, Text.dropBytes?_zero]
  constructor
  · intro h
    obtain ⟨⟨_, after⟩, hread, rfl⟩ := Attempt.map_eq_ok.1 h
    exact ⟨after, hread⟩
  · rintro ⟨after, hread⟩
    exact Attempt.map_eq_ok.2 ⟨(segment, after), hread, rfl⟩

/-- A text that is read consists of blanks, the text of the segment, and the text after it. -/
theorem parts_of_read {selector : Text} {offset : Nat} {rest after : Text} {segment : Segment}
    (h : read selector offset rest = .ok (segment, after)) :
    ∃ blanks, rest = blanks ++ (segment.matched ++ after) ∧
      (∀ c ∈ blanks, Text.isBlank c = true) ∧ segment.matched ≠ [] ∧
        segment.span =
          ⟨offset + blanks.bytes, offset + blanks.bytes + segment.matched.bytes⟩ := by
  obtain ⟨pieces, attributes, hscan, hdescribes, -, rfl⟩ := read_eq_ok_iff.1 h
  have htext : pieces.text ++ after = rest.dropWhile Text.isBlank := by
    have hpieces := Pieces.text_append_rest (rest.dropWhile Text.isBlank)
    rwa [hscan] at hpieces
  refine ⟨rest.takeWhile Text.isBlank, ?_, List.all_eq_true.1 List.all_takeWhile,
    Pieces.text_ne_nil hdescribes, rfl⟩
  show rest = rest.takeWhile Text.isBlank ++ (pieces.text ++ after)
  rw [htext, List.takeWhile_append_dropWhile]

/-- A segment ends where the text after it begins. -/
theorem stop_of_read {selector : Text} {offset : Nat} {rest after : Text} {segment : Segment}
    (h : read selector offset rest = .ok (segment, after)) :
    segment.span.stop + after.bytes = offset + rest.bytes := by
  obtain ⟨blanks, rfl, -, -, hspan⟩ := parts_of_read h
  simp only [hspan, Text.bytes_append]
  omega

/-! ## Where a segment is read -/

/-- Blanks before a segment are skipped. -/
theorem read_skip {blanks : Text} (hblanks : ∀ c ∈ blanks, Text.isBlank c = true)
    (selector : Text) (offset : Nat) (rest : Text) :
    read selector offset (blanks ++ rest) = read selector (offset + blanks.bytes) rest := by
  simp only [read, List.takeWhile_append_of_pos hblanks, List.dropWhile_append_of_pos hblanks,
    Text.bytes_append, Nat.add_assoc]

/-- A segment is the same in every selector and at every place, up to its span. -/
theorem read_anywhere {selector : Text} {offset : Nat} {rest after : Text} {segment : Segment}
    (h : read selector offset rest = .ok (segment, after)) (other : Text) (place : Nat) :
    ∃ span, read other place rest = .ok ({ segment with span }, after) := by
  obtain ⟨pieces, attributes, hscan, hdescribes, hattributes, rfl⟩ := read_eq_ok_iff.1 h
  exact ⟨_, read_eq_ok_iff.2 ⟨pieces, attributes, hscan, hdescribes, hattributes, rfl⟩⟩

/-- No segment begins where nothing that it is made of begins. -/
theorem read_stuck {c : Char} {rest : Text} (h : Pieces.Stuck c rest) (selector : Text)
    (offset : Nat) :
    read selector offset (c :: rest) = .error (.invalid selector offset (.unexpected c)) := by
  simp [read, h.blank, Pieces.scan_stuck h, Pieces.text, Pieces.pseudoText]

theorem not_beginsOpen_of_read {selector : Text} {offset : Nat} {rest after : Text}
    {segment : Segment} (h : read selector offset rest = .ok (segment, after)) :
    ¬ Pieces.BeginsOpen rest := by
  intro hopen
  obtain ⟨c, more, rfl, hstuck⟩ := hopen.stuck
  rw [read_stuck hstuck] at h
  cases h

/-- No child sign stands where a segment begins. -/
theorem takeChild_of_read {selector : Text} {offset : Nat} {rest after : Text} {segment : Segment}
    (h : read selector offset rest = .ok (segment, after)) :
    Pieces.takeChild rest = ([], rest) := by
  obtain ⟨pieces, attributes, hscan, hdescribes, -, -⟩ := read_eq_ok_iff.1 h
  unfold Pieces.takeChild
  split
  case h_1 more hsign =>
    have hnone := Pieces.describes_scan_of_sign more
    rw [hsign] at hscan
    rw [hscan, hdescribes] at hnone
    cases hnone
  case h_2 => rfl

/-! ## More text behind a segment -/

/-- The text that a segment is read from has something in it. -/
theorem not_blank_of_read {selector : Text} {offset : Nat} {rest after : Text} {segment : Segment}
    (h : read selector offset rest = .ok (segment, after)) : rest.all Text.isBlank = false := by
  by_cases hblank : rest.all Text.isBlank = true
  · have hskip := read_skip (List.all_eq_true.1 hblank) selector offset []
    rw [List.append_nil, h] at hskip
    simp [read] at hskip
  · simpa using hblank

/-- A segment is read as before with more text behind it, unless the text ends in blanks and the
child sign follows. -/
theorem read_append {selector : Text} {offset : Nat} {rest after t : Text} {segment : Segment}
    (h : read selector offset rest = .ok (segment, after)) (hopen : ¬ Pieces.BeginsOpen after)
    (ht : Pieces.Stops t)
    (hchild : after.all Text.isBlank = false ∨ (Pieces.takeChild t).1 = []) (other : Text) :
    read other offset (rest ++ t) = .ok (segment, after ++ t) := by
  obtain ⟨htake, hdrop⟩ := Text.blanks_append (not_blank_of_read h) t
  obtain ⟨pieces, attributes, hscan, hdescribes, hattributes, rfl⟩ := read_eq_ok_iff.1 h
  refine read_eq_ok_iff.2 ⟨pieces, attributes, ?_, hdescribes, hattributes, by rw [htake]⟩
  rw [hdrop]
  exact Pieces.scan_append hscan hopen ht hchild

/-- A child sign behind the blanks that follow a segment belongs to the segment. -/
theorem read_append_child {selector : Text} {offset : Nat} {rest after t : Text}
    {segment : Segment} (h : read selector offset rest = .ok (segment, after))
    (hafter : after.all Text.isBlank = true) (hrelation : segment.relation = .descendant)
    (ht : Pieces.Stops t) (hchild : (Pieces.takeChild t).1 ≠ []) (other : Text) :
    ∃ matched span, read other offset (rest ++ t) =
      .ok ({ segment with relation := .child, matched, span }, (Pieces.takeChild t).2) := by
  obtain ⟨htake, hdrop⟩ := Text.blanks_append (not_blank_of_read h) t
  obtain ⟨pieces, attributes, hscan, hdescribes, hattributes, rfl⟩ := read_eq_ok_iff.1 h
  have hnone := child_eq_nil_of_made hrelation
  let more : Pieces := { pieces with child := after ++ (Pieces.takeChild t).1 }
  have hscanned : Pieces.scan ((rest ++ t).dropWhile Text.isBlank) =
      (more, (Pieces.takeChild t).2) := by
    rw [hdrop]
    exact Pieces.scan_append_child hscan hafter hnone ht hchild
  have hread : read other offset (rest ++ t) = .ok (made _ more attributes, _) :=
    read_eq_ok_iff.2 ⟨more, attributes, hscanned, hdescribes, hattributes, rfl⟩
  have hmade : ∀ start, made start more attributes =
      { made start pieces attributes with
        relation := .child, matched := more.text, span := ⟨start, start + more.text.bytes⟩ } := by
    intro start
    simp [made, more, hchild]
  rw [htake, hmade] at hread
  exact ⟨_, _, hread⟩

end Segment
end TreeSelect
