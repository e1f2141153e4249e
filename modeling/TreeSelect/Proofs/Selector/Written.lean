import Mathlib.Data.List.Infix
import TreeSelect.Proofs.Selector.Groups
import TreeSelect.Proofs.Text.Digits

/-!
# Pieces that can be written

The scan takes pieces of a certain form, and pieces of that form are what the scan takes from the
text that they write, if nothing but blanks follows.

* `pairsUp_of_takeArgument` and `takeArgument_append`: an argument is what stands before the first
  parenthesis that it does not open, and in it the parentheses pair up.
* `isWritten_scan`: all pieces that are scanned have the form.
* `scan_text`: pieces of this form are found again.
-/

namespace TreeSelect

namespace Text

/-! ## Parentheses in pairs -/

/-- Whether, behind `opened` parentheses that are open, the parentheses of a text pair up and no two
are open at once. -/
structure PairsUp (opened : Nat) (s : Text) : Prop where
  /-- At the end none is open. -/
  settled : opened + s.count '(' = s.count ')'
  /-- On the way none is closed that is not open, and no second one is opened. -/
  sane : ∀ before, before <+: s →
    before.count ')' ≤ opened + before.count '(' ∧
      opened + before.count '(' ≤ before.count ')' + 1

instance (opened : Nat) (s : Text) : Decidable (PairsUp opened s) :=
  decidable_of_iff
    (opened + s.count '(' = s.count ')' ∧
      ∀ before ∈ s.inits, before.count ')' ≤ opened + before.count '(' ∧
        opened + before.count '(' ≤ before.count ')' + 1)
    ⟨fun h => ⟨h.1, fun before hbefore => h.2 before ((List.mem_inits before s).2 hbefore)⟩,
      fun h => ⟨h.settled, fun before hbefore => h.sane before ((List.mem_inits before s).1 hbefore)⟩⟩

theorem pairsUp_nil {opened : Nat} : PairsUp opened [] ↔ opened = 0 := by
  constructor
  · exact fun h => h.settled
  · rintro rfl
    refine ⟨rfl, fun before hbefore => ?_⟩
    rw [List.prefix_nil.1 hbefore]
    decide

/-- One more character changes the number of open parentheses, which was not too large before. -/
theorem pairsUp_cons {opened next : Nat} {c : Char} {s : Text}
    (hnext : opened + [c].count '(' = next + [c].count ')') :
    PairsUp opened (c :: s) ↔ opened ≤ 1 ∧ PairsUp next s := by
  have hcount : ∀ (d : Char) (t : Text), (c :: t).count d = [c].count d + t.count d :=
    fun d t => (List.count_append : ([c] ++ t).count d = _)
  constructor
  · intro h
    refine ⟨(h.sane [] List.nil_prefix).2, ?_, fun before hbefore => ?_⟩
    · have hsettled := h.settled
      rw [hcount '(' s, hcount ')' s] at hsettled
      omega
    · have hsane := h.sane (c :: before) (List.cons_prefix_cons.2 ⟨rfl, hbefore⟩)
      rw [hcount '(' before, hcount ')' before] at hsane
      omega
  · rintro ⟨hopened, h⟩
    refine ⟨?_, fun before hbefore => ?_⟩
    · have hsettled := h.settled
      rw [hcount '(' s, hcount ')' s]
      omega
    · cases before with
      | nil => simpa using hopened
      | cons d before =>
        obtain ⟨rfl, hmore⟩ := List.cons_prefix_cons.1 hbefore
        have hsane := h.sane before hmore
        rw [hcount '(' before, hcount ')' before]
        omega

theorem pairsUp_open {opened : Nat} {s : Text} :
    PairsUp opened ('(' :: s) ↔ opened = 0 ∧ PairsUp 1 s := by
  have hcons : PairsUp opened ('(' :: s) ↔ opened ≤ 1 ∧ PairsUp (opened + 1) s :=
    pairsUp_cons rfl
  rw [hcons]
  constructor
  · rintro ⟨-, h⟩
    have hopened := (h.sane [] List.nil_prefix).2
    obtain rfl : opened = 0 := by simpa using hopened
    exact ⟨rfl, h⟩
  · rintro ⟨rfl, h⟩
    exact ⟨Nat.zero_le 1, h⟩

theorem pairsUp_close {opened : Nat} {s : Text} :
    PairsUp opened (')' :: s) ↔ opened = 1 ∧ PairsUp 0 s := by
  constructor
  · intro h
    have hclosed := (h.sane [')'] (List.cons_prefix_cons.2 ⟨rfl, List.nil_prefix⟩)).1
    have hopened := (h.sane [] List.nil_prefix).2
    obtain rfl : opened = 1 := by
      simp at hclosed hopened
      omega
    exact ⟨rfl, ((pairsUp_cons rfl).1 h).2⟩
  · rintro ⟨rfl, h⟩
    exact (pairsUp_cons rfl).2 ⟨Nat.le_refl 1, h⟩

theorem pairsUp_other {opened : Nat} {c : Char} {s : Text} (hopen : c ≠ '(') (hclose : c ≠ ')') :
    PairsUp opened (c :: s) ↔ PairsUp opened s := by
  have hcons : PairsUp opened (c :: s) ↔ opened ≤ 1 ∧ PairsUp opened s :=
    pairsUp_cons (by simp [hopen, hclose])
  rw [hcons]
  exact and_iff_right_of_imp fun h => (h.sane [] List.nil_prefix).2

/-- Where there are no parentheses, all of them pair up. -/
theorem pairsUp_of_forall {s : Text} (h : ∀ c ∈ s, c ≠ '(' ∧ c ≠ ')') : PairsUp 0 s := by
  induction s with
  | nil => exact pairsUp_nil.2 rfl
  | cons c s ih =>
    obtain ⟨hopen, hclose⟩ := h c List.mem_cons_self
    exact (pairsUp_other hopen hclose).2 (ih fun d hd => h d (List.mem_cons_of_mem c hd))

end Text

namespace Pieces

/-! ## Arguments -/

/-- In an argument the parentheses pair up. -/
theorem pairsUp_of_takeArgument {nested : Bool} {s argument after : Text}
    (h : takeArgument nested s = some (argument, after)) :
    Text.PairsUp nested.toNat argument := by
  induction s generalizing nested argument with
  | nil => cases h
  | cons c s ih =>
    have hlater : ∀ {inner : Bool},
        (takeArgument inner s).map (fun r => (c :: r.1, r.2)) = some (argument, after) →
          ∃ more, argument = c :: more ∧ Text.PairsUp inner.toNat more := by
      intro inner hmap
      obtain ⟨⟨more, _⟩, hmore, hpair⟩ := Option.map_eq_some_iff.1 hmap
      cases hpair
      exact ⟨more, rfl, ih hmore⟩
    rw [takeArgument] at h
    split at h
    case isTrue hclose =>
      cases nested with
      | true =>
        obtain ⟨more, rfl, hmore⟩ := hlater h
        rw [hclose]
        exact Text.pairsUp_close.2 ⟨rfl, hmore⟩
      | false =>
        cases h
        exact Text.pairsUp_nil.2 rfl
    case isFalse hclose =>
      split at h
      case isTrue hopen =>
        cases nested with
        | true => cases h
        | false =>
          obtain ⟨more, rfl, hmore⟩ := hlater h
          rw [hopen]
          exact Text.pairsUp_open.2 ⟨rfl, hmore⟩
      case isFalse hopen =>
        obtain ⟨more, rfl, hmore⟩ := hlater h
        exact (Text.pairsUp_other hopen hclose).2 hmore

/-- Where the parentheses pair up, the next one that closes ends the argument. -/
theorem takeArgument_append {nested : Bool} {argument : Text}
    (h : Text.PairsUp nested.toNat argument) (after : Text) :
    takeArgument nested (argument ++ ')' :: after) = some (argument, after) := by
  induction argument generalizing nested with
  | nil =>
    cases nested with
    | true => cases Text.pairsUp_nil.1 h
    | false => rfl
  | cons c argument ih =>
    rw [List.cons_append, takeArgument]
    by_cases hclose : c = ')'
    · subst hclose
      obtain ⟨hnested, hmore⟩ := Text.pairsUp_close.1 h
      have htaken : takeArgument false (argument ++ ')' :: after) = some (argument, after) := ih hmore
      rw [if_pos rfl, if_pos (Bool.toNat_eq_one.1 hnested), htaken]
      rfl
    rw [if_neg hclose]
    by_cases hopen : c = '('
    · subst hopen
      obtain ⟨hnested, hmore⟩ := Text.pairsUp_open.1 h
      have htaken : takeArgument true (argument ++ ')' :: after) = some (argument, after) := ih hmore
      rw [if_pos rfl, if_neg (by simp [Bool.toNat_eq_zero.1 hnested]), htaken]
      rfl
    · rw [if_neg hopen, ih ((Text.pairsUp_other hopen hclose).1 h)]
      rfl

/-! ## The form of pieces -/

/-- Whether a piece is empty, or a sign and a name behind it. -/
def IsSigned (sign : Char) (accepts : Char → Bool) (piece : Text) : Prop :=
  piece = [] ∨ ∃ name, piece = sign :: name ∧ name ≠ [] ∧ ∀ c ∈ name, accepts c = true

/-- Whether pieces have the form that a text can give them. -/
structure IsWritten (pieces : Pieces) : Prop where
  tag : ∀ c ∈ pieces.tag, isTagChar c = true
  id : IsSigned '#' isNameChar pieces.id
  classes : IsSigned '.' isClassChar pieces.classes
  groups : ∃ parts, (∀ part ∈ parts, ']' ∉ part) ∧ pieces.groups = bracketed parts
  name : ∀ pseudo ∈ pieces.pseudo, pseudo.1 ≠ [] ∧ ∀ c ∈ pseudo.1, isNameChar c = true
  argument : ∀ pseudo ∈ pieces.pseudo, ∀ argument ∈ pseudo.2, Text.PairsUp 0 argument
  child : pieces.child = [] ∨
    ∃ blanks, (∀ c ∈ blanks, Text.isBlank c = true) ∧ pieces.child = blanks ++ ['>']

theorem isSigned_takeSigned (sign : Char) (accepts : Char → Bool) (s : Text) :
    IsSigned sign accepts (takeSigned sign accepts s).1 := by
  cases s with
  | nil => exact .inl rfl
  | cons c s =>
    rw [takeSigned]
    split
    case isTrue h =>
      refine .inr ⟨s.takeWhile accepts, by rw [h.1], h.2, ?_⟩
      exact List.all_eq_true.1 List.all_takeWhile
    case isFalse => exact .inl rfl

theorem isWritten_takePseudo {s : Text} {pseudo : Text × Option Text}
    (h : (takePseudo s).1 = some pseudo) :
    (pseudo.1 ≠ [] ∧ ∀ c ∈ pseudo.1, isNameChar c = true) ∧
      ∀ argument ∈ pseudo.2, Text.PairsUp 0 argument := by
  unfold takePseudo at h
  split at h
  case h_1 => cases h
  case h_2 sign name rest hsigned =>
    have hname : name ≠ [] ∧ ∀ c ∈ name, isNameChar c = true := by
      have hpiece := isSigned_takeSigned ':' isNameChar s
      rw [hsigned] at hpiece
      rcases hpiece with hnil | ⟨written, hpiece, hwritten⟩
      · cases hnil
      · cases hpiece
        exact hwritten
    split at h
    case h_1 =>
      cases h
      refine ⟨hname, fun argument hargument => ?_⟩
      cases hargument
    case h_2 argument after hargument =>
      cases h
      refine ⟨hname, fun inside hinside => ?_⟩
      cases hinside
      unfold argument? at hargument
      split at hargument
      · exact pairsUp_of_takeArgument hargument
      · cases hargument

theorem isWritten_takeChild (s : Text) :
    (takeChild s).1 = [] ∨
      ∃ blanks, (∀ c ∈ blanks, Text.isBlank c = true) ∧ (takeChild s).1 = blanks ++ ['>'] := by
  unfold takeChild
  split
  case h_1 => exact .inr ⟨s.takeWhile Text.isBlank, List.all_eq_true.1 List.all_takeWhile, rfl⟩
  case h_2 => exact .inl rfl

/-- All pieces that are scanned have the form of pieces that are written. -/
theorem isWritten_scan (s : Text) : (scan s).1.IsWritten where
  tag := List.all_eq_true.1 List.all_takeWhile
  id := isSigned_takeSigned _ _ _
  classes := isSigned_takeSigned _ _ _
  groups := exists_bracketed _
  name := fun _ hpseudo => (isWritten_takePseudo hpseudo).1
  argument := fun _ hpseudo => (isWritten_takePseudo hpseudo).2
  child := isWritten_takeChild _

/-! ## Scanning what is written -/

/-- Whether a text, if there is anything in it, begins with one of the signs or with a blank. -/
def Begins (signs : List Char) (t : Text) : Prop :=
  ∀ c ∈ t.head?, c ∈ signs ∨ Text.isBlank c = true

/-- A piece with its sign goes before. -/
theorem Begins.append {signs : List Char} {t piece : Text} {sign : Char} (ht : Begins signs t)
    (hpiece : ∀ c ∈ piece.head?, c = sign) : Begins (sign :: signs) (piece ++ t) := by
  cases piece with
  | nil => exact fun c hc => (ht c hc).imp_left (List.mem_cons_of_mem sign)
  | cons d piece =>
    intro c hc
    cases hc
    exact .inl (by rw [hpiece d rfl]; exact List.mem_cons_self)

/-- A piece ends where a sign or a blank stands that it does not accept. -/
theorem Begins.rejected {signs : List Char} {t : Text} (ht : Begins signs t) {accepts : Char → Bool}
    (hsigns : ∀ c ∈ signs, accepts c = false)
    (hblank : ∀ c, Text.isBlank c = true → accepts c = false) :
    ∀ c ∈ t.head?, accepts c = false :=
  fun c hc => (ht c hc).elim (hsigns c) (hblank c)

/-- A sign that is none of those a text may begin with is not its beginning. -/
theorem Begins.not_mem {signs : List Char} {t : Text} (ht : Begins signs t) {c : Char}
    (hsigns : c ∉ signs) (hblank : Text.isBlank c = false) : c ∉ t.head? := by
  intro hc
  rcases ht c hc with hmem | hcase
  · exact hsigns hmem
  · rw [hblank] at hcase
    cases hcase

theorem isNameChar_of_blank {c : Char} (h : Text.isBlank c = true) : isNameChar c = false := by
  by_cases hname : isNameChar c = true
  · rw [isBlank_of_isNameChar hname] at h
    cases h
  · simpa using hname

/-- A sign and the name behind it are taken. -/
theorem takeSigned_append_rest {sign : Char} {accepts : Char → Bool} {piece : Text}
    (h : IsSigned sign accepts piece) {rest : Text} (hsign : sign ∉ rest.head?)
    (hrest : ∀ c ∈ rest.head?, accepts c = false) :
    takeSigned sign accepts (piece ++ rest) = (piece, rest) := by
  rcases h with rfl | ⟨name, rfl, hne, hname⟩
  · exact takeSigned_of_head hsign accepts
  · obtain ⟨htaken, hleft⟩ := Text.takeWhile_run hname hrest
    rw [List.cons_append, takeSigned, htaken, if_pos ⟨rfl, hne⟩, hleft]

/-- A pseudo-class is taken as it is written. -/
theorem takePseudo_append_rest {pseudo : Option (Text × Option Text)} {rest : Text}
    (hname : ∀ written ∈ pseudo, written.1 ≠ [] ∧ ∀ c ∈ written.1, isNameChar c = true)
    (hargument : ∀ written ∈ pseudo, ∀ argument ∈ written.2, Text.PairsUp 0 argument)
    (hsign : ':' ∉ rest.head?) (hopen : '(' ∉ rest.head?)
    (hrest : ∀ c ∈ rest.head?, isNameChar c = false) :
    takePseudo (pseudoText pseudo ++ rest) = (pseudo, rest) := by
  rcases pseudo with _ | ⟨name, _ | argument⟩
  · exact takePseudo_of_head hsign
  · have hsigned : takeSigned ':' isNameChar (':' :: name ++ rest) = (':' :: name, rest) :=
      takeSigned_append_rest (.inr ⟨name, rfl, hname _ rfl⟩) hsign hrest
    rw [pseudoText, takePseudo, hsigned]
    simp only [argument?_of_head hopen]
  · have hparenthesis : isNameChar '(' = false := isNameChar_sign (by decide)
    have hsigned : takeSigned ':' isNameChar (':' :: name ++ '(' :: (argument ++ ')' :: rest)) =
        (':' :: name, '(' :: (argument ++ ')' :: rest)) := by
      refine takeSigned_append_rest (.inr ⟨name, rfl, hname _ rfl⟩) (by simp) ?_
      intro c hc
      cases hc
      exact hparenthesis
    have hpairs : Text.PairsUp false.toNat argument := hargument _ rfl argument rfl
    have hinside : argument? ('(' :: (argument ++ ')' :: rest)) = some (argument, rest) :=
      takeArgument_append hpairs rest
    have htext : pseudoText (some (name, some argument)) ++ rest =
        ':' :: name ++ '(' :: (argument ++ ')' :: rest) := by
      simp [pseudoText]
    rw [htext, takePseudo, hsigned]
    simp only [hinside]

/-- A child sign is taken together with the blanks before it, and blanks without a child sign are
left. -/
theorem takeChild_append_rest {child blanks : Text}
    (hchild : child = [] ∨ ∃ before, (∀ c ∈ before, Text.isBlank c = true) ∧ child = before ++ ['>'])
    (hblanks : ∀ c ∈ blanks, Text.isBlank c = true) :
    takeChild (child ++ blanks) = (child, blanks) := by
  have hnone : takeChild [] = ([], []) := rfl
  rcases hchild with rfl | ⟨before, hbefore, rfl⟩
  · have happend := takeChild_append_of_blank hblanks []
    rwa [hnone, if_pos rfl, List.append_nil] at happend
  · have hsign : takeChild ('>' :: blanks) = (['>'], blanks) := rfl
    rw [List.append_assoc, List.singleton_append, takeChild_append_of_blank hbefore, hsign]
    rfl

theorem IsSigned.head {sign : Char} {accepts : Char → Bool} {piece : Text}
    (h : IsSigned sign accepts piece) : ∀ c ∈ piece.head?, c = sign := by
  rcases h with rfl | ⟨name, rfl, -⟩
  · simp
  · simp [eq_comm]

theorem head_pseudoText (pseudo : Option (Text × Option Text)) :
    ∀ c ∈ (pseudoText pseudo).head?, c = ':' := by
  rcases pseudo with _ | ⟨name, _ | argument⟩ <;> simp [pseudoText, eq_comm]

theorem begins_child {child blanks : Text}
    (hchild : child = [] ∨ ∃ before, (∀ c ∈ before, Text.isBlank c = true) ∧ child = before ++ ['>'])
    (hblanks : ∀ c ∈ blanks, Text.isBlank c = true) : Begins ['>'] (child ++ blanks) := by
  have hblank : ∀ {rest : Text}, (∀ c ∈ rest, Text.isBlank c = true) → Begins [] rest :=
    fun hrest c hc => .inr (hrest c (List.mem_of_head? hc))
  rcases hchild with rfl | ⟨before, hbefore, rfl⟩
  · exact (hblank hblanks).append (by simp)
  · rw [List.append_assoc]
    intro c hc
    cases before with
    | nil =>
      cases hc
      exact .inl List.mem_cons_self
    | cons d before =>
      cases hc
      exact .inr (hbefore c List.mem_cons_self)

/-- Pieces are found again in the text that they write, behind which blanks may stand. -/
theorem scan_text {pieces : Pieces} (h : pieces.IsWritten) {blanks : Text}
    (hblanks : ∀ c ∈ blanks, Text.isBlank c = true) :
    scan (pieces.text ++ blanks) = (pieces, blanks) := by
  obtain ⟨tag, id, classes, groups, pseudo, child⟩ := pieces
  obtain ⟨htag, hid, hclasses, ⟨parts, hparts, hgroups⟩, hname, hargument, hchild⟩ := h
  dsimp only at htag hid hclasses hgroups hname hargument hchild
  subst hgroups
  -- what stands behind each piece begins with the sign of a later piece or with a blank
  have hafterPseudo := begins_child hchild hblanks
  have hafterGroups := hafterPseudo.append (head_pseudoText pseudo)
  have hafterClasses := hafterGroups.append (head_bracketed parts)
  have hafterId := hafterClasses.append hclasses.head
  have hafterTag := hafterId.append hid.head
  -- so it is none of the characters that the piece accepts
  have hblankTag : ∀ c, Text.isBlank c = true → isTagChar c = false :=
    fun c hc => (stops_of_blank hc [] c rfl).1
  have hblankClass : ∀ c, Text.isBlank c = true → isClassChar c = false :=
    fun c hc => (stops_of_blank hc [] c rfl).2.1
  obtain ⟨htagTaken, htagLeft⟩ := Text.takeWhile_run htag
    (hafterTag.rejected (by decide +kernel) hblankTag)
  have hidTaken := takeSigned_append_rest hid (hafterId.not_mem (by decide) (by decide))
    (hafterId.rejected (by decide +kernel) fun c => isNameChar_of_blank)
  have hclassesTaken := takeSigned_append_rest hclasses
    (hafterClasses.not_mem (by decide) (by decide))
    (hafterClasses.rejected (by decide +kernel) hblankClass)
  have hgroupsTaken := takeGroups_bracketed hparts (hafterGroups.not_mem (by decide) (by decide))
  have hpseudoTaken := takePseudo_append_rest hname hargument
    (hafterPseudo.not_mem (by decide) (by decide)) (hafterPseudo.not_mem (by decide) (by decide))
    (hafterPseudo.rejected (by decide +kernel) fun c => isNameChar_of_blank)
  simp only [scan, text, List.append_assoc, htagTaken, htagLeft, hidTaken, hclassesTaken,
    hgroupsTaken, hpseudoTaken, takeChild_append_rest hchild hblanks]

/-- Pieces that describe something begin with a character that is not blank. -/
theorem begins_text {pieces : Pieces} (h : pieces.IsWritten) (hdescribes : pieces.describes = true) :
    ∃ first rest, pieces.text = first :: rest ∧ Text.isBlank first = false := by
  obtain ⟨tag, id, classes, groups, pseudo, child⟩ := pieces
  obtain ⟨htag, hid, hclasses, ⟨parts, -, hgroups⟩, -, -, -⟩ := h
  dsimp only at htag hid hclasses hgroups
  subst hgroups
  -- without the child sign they describe the same
  have hne : text ⟨tag, id, classes, bracketed parts, pseudo, []⟩ ≠ [] := text_ne_nil hdescribes
  obtain ⟨first, rest, hfirst⟩ := List.exists_cons_of_ne_nil hne
  have hhead : first ∈ (text ⟨tag, id, classes, bracketed parts, pseudo, []⟩).head? := by
    rw [hfirst]
    rfl
  have hchild : text ⟨tag, id, classes, bracketed parts, pseudo, child⟩ =
      text ⟨tag, id, classes, bracketed parts, pseudo, []⟩ ++ child := by
    simp [text]
  refine ⟨first, rest ++ child, by rw [hchild, hfirst]; rfl, ?_⟩
  have hpieces : first ∈ tag.head? ∨ first ∈ id.head? ∨ first ∈ classes.head? ∨
      first ∈ (bracketed parts).head? ∨ first ∈ (pseudoText pseudo).head? := by
    simp only [text, List.append_nil, List.append_assoc, List.head?_append, Option.mem_def,
      Option.or_eq_some_iff] at hhead ⊢
    tauto
  rcases hpieces with hhead | hhead | hhead | hhead | hhead
  · have hchar := htag first (List.mem_of_head? hhead)
    by_cases hblank : Text.isBlank first = true
    · rw [(stops_of_blank hblank [] first rfl).1] at hchar
      cases hchar
    · simpa using hblank
  · rw [hid.head first hhead]
    decide
  · rw [hclasses.head first hhead]
    decide
  · rw [head_bracketed parts first hhead]
    decide
  · rw [head_pseudoText pseudo first hhead]
    decide

end Pieces
end TreeSelect
