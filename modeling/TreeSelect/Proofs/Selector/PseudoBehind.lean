import TreeSelect.Proofs.Path.OfSegments
import TreeSelect.Proofs.Selector.Written

/-!
# A pseudo-class behind a segment

Written behind a segment that has none, a pseudo-class becomes the pseudo-class of that segment and
changes nothing else about it.  So the step gets the position as one more predicate.

* `scan_append_pseudo`: the pieces of the segment stay what they were.
* `Pseudo.StandsFor`: what a pseudo-class is taken for as it is written.
* `SiblingClass` lists the pseudo-classes that ask for a place, and `standsFor_cycle` is about cycles.
* `ofSelector_append_pseudo` and `ofSelector_whole`: the paths with the pseudo-class and without.
-/

namespace TreeSelect

/-! ## Pieces -/

namespace Pieces

/-- Behind a text that the other pieces take up, a pseudo-class is found as the only new piece. -/
theorem scan_append_pseudo {s u : Text} {pieces : Pieces} {pseudo : Text × Option Text}
    (h : scan s = (pieces, [])) (hpseudo : pieces.pseudo = none) (hchild : pieces.child = [])
    (htake : takePseudo (':' :: u) = (some pseudo, [])) :
    scan (s ++ ':' :: u) = ({ pieces with pseudo := some pseudo }, []) := by
  simp only [scan, Prod.mk.injEq] at h
  obtain ⟨rfl, hrest⟩ := h
  simp only at hpseudo hchild
  -- without a pseudo-class and a child sign, the groups end the text
  have hgroups : ∀ t : Text, (takePseudo t).1 = none → (takeChild (takePseudo t).2).1 = [] →
      (takeChild (takePseudo t).2).2 = [] → t = [] := by
    intro t hnone hsign hend
    have hpieces := takePseudo_append t
    have hlast := takeChild_append (takePseudo t).2
    rw [hsign, hend] at hlast
    rw [hnone, ← hlast] at hpieces
    exact hpieces.symm
  have hend := hgroups _ hpseudo hchild hrest
  -- the other pieces stop at a colon
  have hcolon : ∀ c ∈ (':' :: u : Text).head?, c = ':' := by simp
  have htag : ∀ c ∈ (':' :: u : Text).head?, isTagChar c = false := by
    intro c hc
    rw [hcolon c hc]
    exact isTagChar_sign (by decide) (by decide)
  have hid : ∀ c ∈ (':' :: u : Text).head?, c ≠ '#' ∧ isNameChar c = false := by
    intro c hc
    rw [hcolon c hc]
    exact ⟨by decide, isNameChar_sign (by decide)⟩
  have hclasses : ∀ c ∈ (':' :: u : Text).head?, c ≠ '.' ∧ isClassChar c = false := by
    intro c hc
    rw [hcolon c hc]
    exact ⟨by decide, isClassChar_sign (by decide) (by decide)⟩
  have htaken : ∀ t : Text, (takeGroups t).2 = [] →
      takeGroups (t ++ ':' :: u) = ((takeGroups t).1, ':' :: u) := by
    intro t ht
    rw [takeGroups_append_of_head (by simp) (by simp [ht]), ht, List.nil_append]
  simp only [scan, takeWhile_append_of_head htag, dropWhile_append_of_head htag,
    takeSigned_append_of_head hid, takeSigned_append_of_head hclasses, htaken _ hend, htake]
  rw [hchild]
  rfl

end Pieces

/-! ## Segments -/

namespace Segment

/-- Whether a text has a beginning that is not skipped. -/
def BeginsPlainly (s : Text) : Prop := ∃ first rest, s = first :: rest ∧ Text.isBlank first = false

theorem BeginsPlainly.blanks {s : Text} (h : BeginsPlainly s) :
    s.takeWhile Text.isBlank = [] ∧ s.dropWhile Text.isBlank = s := by
  obtain ⟨first, rest, rfl, hfirst⟩ := h
  simp [hfirst]

/-- Pieces that leave nothing of a text make the segment of the text. -/
theorem read_whole {s : Text} {pieces : Pieces} {attributes : Option AttributeConditions}
    (hbegin : BeginsPlainly s) (hscan : Pieces.scan s = (pieces, []))
    (hdescribes : pieces.describes = true) (hattributes : ConditionsOf pieces.groups attributes) :
    read s 0 s = .ok (made 0 pieces attributes, []) := by
  obtain ⟨htake, hdrop⟩ := hbegin.blanks
  exact read_eq_ok_iff.2 ⟨pieces, attributes, by rw [hdrop, hscan], hdescribes, hattributes,
    by rw [htake]; rfl⟩

/-- A segment that is the whole text is made of pieces that leave nothing. -/
theorem parse_whole {s : Text} {segment : Segment} (h : parse s = .ok segment)
    (hmatched : segment.matched = s) :
    read s 0 s = .ok (segment, []) ∧ ∃ pieces attributes, BeginsPlainly s ∧
      Pieces.scan s = (pieces, []) ∧ ConditionsOf pieces.groups attributes ∧
        segment = made 0 pieces attributes := by
  obtain ⟨after, hread⟩ := parse_eq_ok_iff.1 h
  obtain ⟨pieces, attributes, hscan, -, hattributes, hmade⟩ := read_eq_ok_iff.1 hread
  have htext : pieces.text = s := by
    rw [← hmatched, hmade]
    rfl
  -- the pieces are as long as the text, so that nothing is skipped and nothing is left
  have hpieces : s ++ after = s.dropWhile Text.isBlank := by
    have hlost := Pieces.text_append_rest (s.dropWhile Text.isBlank)
    rwa [hscan, htext] at hlost
  have hsplit := List.takeWhile_append_dropWhile (p := Text.isBlank) (l := s)
  have hpiecesLength := congrArg List.length hpieces
  have hsplitLength := congrArg List.length hsplit
  rw [List.length_append] at hpiecesLength hsplitLength
  have hblank : s.takeWhile Text.isBlank = [] := List.eq_nil_of_length_eq_zero (by omega)
  have hafter : after = [] := List.eq_nil_of_length_eq_zero (by omega)
  rw [hblank, List.nil_append] at hsplit
  subst hafter
  obtain ⟨first, rest, hdrop, hfirst⟩ := Text.exists_of_not_blank (not_blank_of_read hread)
  rw [hsplit] at hscan hdrop
  rw [hblank] at hmade
  exact ⟨hread, pieces, attributes, ⟨first, rest, hdrop, hfirst⟩, hscan, hattributes, hmade⟩

/-- Behind a segment that is the whole text, a pseudo-class is the only thing that is new. -/
theorem read_append_pseudo {s u : Text} {segment : Segment} {pseudo : Text × Option Text}
    (h : parse s = .ok segment) (hmatched : segment.matched = s) (hpseudo : segment.pseudo = none)
    (hrelation : segment.relation = .descendant)
    (htake : Pieces.takePseudo (':' :: u) = (some pseudo, [])) :
    ∃ matched span, read (s ++ ':' :: u) 0 (s ++ ':' :: u) = .ok ({ segment with
      pseudo := some ⟨pseudo.1.lower, pseudo.2.map Text.trim⟩, matched, span }, []) := by
  obtain ⟨-, pieces, attributes, hbegin, hscan, hattributes, rfl⟩ := parse_whole h hmatched
  have hnone : pieces.pseudo = none := Option.map_eq_none_iff.1 hpseudo
  have hchild := child_eq_nil_of_made hrelation
  have hbegins : BeginsPlainly (s ++ ':' :: u) := by
    obtain ⟨first, rest, rfl, hfirst⟩ := hbegin
    exact ⟨first, rest ++ ':' :: u, rfl, hfirst⟩
  have hdescribes : Pieces.describes { pieces with pseudo := some pseudo } = true := by
    simp [Pieces.describes]
  exact ⟨_, _, read_whole hbegins (Pieces.scan_append_pseudo hscan hnone hchild htake) hdescribes
    hattributes⟩

/-- Pieces of the form that is scanned make the segment of their text. -/
theorem parse_pieces {pieces : Pieces} {attributes : Option AttributeConditions}
    (h : pieces.IsWritten) (hdescribes : pieces.describes = true)
    (hattributes : ConditionsOf pieces.groups attributes) :
    parse pieces.text = .ok (made 0 pieces attributes) := by
  have hscan : Pieces.scan pieces.text = (pieces, []) := by
    have hblanks := Pieces.scan_text h (List.forall_mem_nil _)
    rwa [List.append_nil] at hblanks
  obtain ⟨first, rest, htext, hfirst⟩ := Pieces.begins_text h hdescribes
  exact parse_eq_ok_iff.2
    ⟨[], read_whole ⟨first, rest, htext, hfirst⟩ hscan hdescribes hattributes⟩

/-- A tag and groups, of which no part closes its bracket, have the form that is scanned. -/
theorem isWritten_tag_groups {tag : Text} (htag : ∀ c ∈ tag, isTagChar c = true) {parts : List Text}
    (hparts : ∀ part ∈ parts, ']' ∉ part) :
    Pieces.IsWritten ⟨tag, [], [], bracketed parts, none, []⟩ where
  tag := htag
  id := .inl rfl
  classes := .inl rfl
  groups := ⟨parts, hparts, rfl⟩
  name := by simp
  argument := by simp
  child := .inl rfl

/-- A run of tag characters is a segment that asks for this tag alone. -/
theorem parse_tag {tag : Text} (hne : tag ≠ []) (htag : ∀ c ∈ tag, isTagChar c = true) :
    parse tag = .ok (made 0 ⟨tag, [], [], [], none, []⟩ none) := by
  have hparse := parse_pieces (isWritten_tag_groups htag (List.forall_mem_nil _))
    (by simp [Pieces.describes, hne]) (.inl ⟨rfl, rfl⟩)
  have htext : Pieces.text ⟨tag, [], [], bracketed [], none, []⟩ = tag := by
    simp [Pieces.text, Pieces.pseudoText, bracketed]
  rwa [htext] at hparse

/-- The tag of a segment that is the whole text is the beginning of the text, if it is written. -/
theorem tag_chars {tag conditions : Text} {segment : Segment}
    (h : parse (tag ++ conditions) = .ok segment) (hmatched : segment.matched = tag ++ conditions)
    (htag : segment.tag = tag) : tag ≠ [] ∧ ∀ c ∈ tag, isTagChar c = true := by
  obtain ⟨-, pieces, attributes, -, hscan, -, rfl⟩ := parse_whole h hmatched
  have htaken : pieces.tag = (tag ++ conditions).takeWhile isTagChar := by
    rw [← congrArg (fun result => result.1.tag) hscan]
    rfl
  by_cases hempty : pieces.tag.isEmpty = true
  · -- without a tag in the text the tag is a star, but then the text begins with it
    have hstar : tag = ['*'] := htag.symm.trans (if_pos hempty)
    have hchar : isTagChar '*' = true := by simp [isTagChar]
    rw [List.isEmpty_iff.1 hempty, hstar, List.singleton_append, List.takeWhile_cons, hchar]
      at htaken
    cases htaken
  · have hwritten : pieces.tag = tag := (if_neg hempty).symm.trans htag
    constructor
    · intro hnil
      rw [hnil] at hwritten
      exact hempty (List.isEmpty_iff.2 hwritten)
    · intro c hc
      rw [← hwritten, htaken] at hc
      exact List.all_eq_true.1 List.all_takeWhile c hc

end Segment

/-! ## Pseudo-classes as they are written -/

namespace Pseudo

/-- A pseudo-class as it is written. -/
def text (pseudo : Pseudo) : Text := Pieces.pseudoText (some (pseudo.name, pseudo.argument))

/-- Whether the text of a pseudo-class is taken as that pseudo-class, leaves the selector one branch,
and stands for a position. -/
structure StandsFor (pseudo : Pseudo) (position : Position) : Prop where
  taken : Pieces.takePseudo pseudo.text = (some (pseudo.name, pseudo.argument), [])
  comma : ',' ∉ pseudo.text
  ends : ∃ before last, pseudo.text = before ++ [last] ∧ Text.isBlank last = false
  meaning : Position.ofPseudo pseudo.name.lower (pseudo.argument.map Text.trim) = .ok position

theorem takePseudo_text {pseudo : Pseudo}
    (hname : pseudo.name ≠ [] ∧ ∀ c ∈ pseudo.name, isNameChar c = true)
    (hargument : ∀ argument ∈ pseudo.argument, Text.PairsUp 0 argument) :
    Pieces.takePseudo pseudo.text = (some (pseudo.name, pseudo.argument), []) := by
  have htaken : Pieces.takePseudo (pseudo.text ++ []) =
      (some (pseudo.name, pseudo.argument), []) := by
    refine Pieces.takePseudo_append_rest ?_ ?_ (by simp) (by simp) (by simp)
    · intro written hwritten
      cases hwritten
      exact hname
    · intro written hwritten
      cases hwritten
      exact hargument
  rwa [List.append_nil] at htaken

/-- Whether a character has no meaning of its own in the argument of a pseudo-class. -/
def IsPlainChar (c : Char) : Prop := Text.isBlank c = false ∧ c ≠ '(' ∧ c ≠ ')' ∧ c ≠ ','

instance (c : Char) : Decidable (IsPlainChar c) :=
  inferInstanceAs (Decidable (Text.isBlank c = false ∧ c ≠ '(' ∧ c ≠ ')' ∧ c ≠ ','))

theorem isPlainChar_of_isDigit {c : Char} (h : c.isDigit = true) : IsPlainChar c := by
  refine ⟨Text.isBlank_of_isDigit h, ?_, ?_, ?_⟩ <;> rintro rfl <;> exact absurd h (by decide)

/-- An argument of `:nth-child` without blanks, parentheses and commas is taken as it is. -/
theorem standsFor_nthChild {argument : Text} (hne : argument ≠ [])
    (hplain : ∀ c ∈ argument, IsPlainChar c) :
    StandsFor ⟨"nth-child".toList, some argument⟩ (Position.ofNthChild argument) where
  taken := by
    have hname : "nth-child".toList ≠ [] ∧ ∀ c ∈ "nth-child".toList, isNameChar c = true :=
      ⟨by decide, by decide +kernel⟩
    refine takePseudo_text hname fun inside hinside => ?_
    cases hinside
    exact Text.pairsUp_of_forall fun c hc => ⟨(hplain c hc).2.1, (hplain c hc).2.2.1⟩
  comma := by
    show ',' ∉ ":nth-child(".toList ++ argument ++ [')']
    rw [List.mem_append, List.mem_append, not_or, not_or]
    exact ⟨⟨by decide, fun hmem => (hplain ',' hmem).2.2.2 rfl⟩, by decide⟩
  ends := ⟨":nth-child(".toList ++ argument, ')', rfl, by decide⟩
  meaning := by
    have hname : PseudoClass.ofName (Text.lower "nth-child".toList) = .ok .nthChild := by decide
    have htrim := Text.isTrimmed_of_forall fun c hc => (hplain c hc).1
    obtain ⟨first, rest, rfl⟩ := List.exists_cons_of_ne_nil hne
    show Position.ofPseudo (Text.lower "nth-child".toList) (some (Text.trim (first :: rest))) = _
    rw [Position.ofPseudo, hname, Text.trim_of_isTrimmed htrim, Option.getD_some]
    simp only [Text.trim_of_isTrimmed htrim]
    rfl

/-- A cycle as it is written. -/
theorem standsFor_cycle {multiple offset : Text} (hmultiple : multiple.isDigits = true)
    (hoffset : offset.isDigits = true) :
    StandsFor ⟨"nth-child".toList, some (multiple ++ 'n' :: '+' :: offset)⟩
      (.cycle (Position.withoutLeadingZeros multiple) (Position.withoutLeadingZeros offset)) := by
  obtain ⟨-, hdigits⟩ := Text.isDigits_iff.1 hmultiple
  obtain ⟨-, hdigitsOffset⟩ := Text.isDigits_iff.1 hoffset
  rw [← Position.ofNthChild_cycle hmultiple hoffset]
  refine standsFor_nthChild (by simp) fun c hc => ?_
  rcases List.mem_append.1 hc with hc | hc
  · exact isPlainChar_of_isDigit (hdigits c hc)
  rcases List.mem_cons.1 hc with rfl | hc
  · decide
  rcases List.mem_cons.1 hc with rfl | hc
  · decide
  · exact isPlainChar_of_isDigit (hdigitsOffset c hc)

end Pseudo

/-! ## Pseudo-classes about places -/

/-- The pseudo-classes about the place of an element, without cycles and conditions of the caller. -/
inductive SiblingClass
  | firstChild
  | lastChild
  | odd
  | even
  | nth (digits : Text)
  deriving DecidableEq, Repr

namespace SiblingClass

/-- The name of a pseudo-class. -/
def name : SiblingClass → Text
  | .firstChild => "first-child".toList
  | .lastChild => "last-child".toList
  | .odd | .even | .nth _ => "nth-child".toList

/-- What stands in the parentheses of a pseudo-class. -/
def argument : SiblingClass → Option Text
  | .firstChild | .lastChild => none
  | .odd => some "odd".toList
  | .even => some "even".toList
  | .nth digits => some digits

/-- A pseudo-class as it is written. -/
def text (pseudo : SiblingClass) : Text := Pieces.pseudoText (some (pseudo.name, pseudo.argument))

/-- The positions that a pseudo-class stands for. -/
def position : SiblingClass → Position
  | .firstChild => .first
  | .lastChild => .last
  | .odd => .odd
  | .even => .even
  | .nth digits => .index (Position.withoutLeadingZeros digits)

/-- Whether the number of a pseudo-class is written in digits. -/
def isWritten : SiblingClass → Bool
  | .nth digits => digits.isDigits
  | _ => true

end SiblingClass

namespace SiblingClass

variable {pseudo : SiblingClass}

/-- A pseudo-class stands for its positions. -/
theorem standsFor (h : pseudo.isWritten = true) :
    Pseudo.StandsFor ⟨pseudo.name, pseudo.argument⟩ pseudo.position := by
  cases pseudo with
  | firstChild =>
    exact ⟨Pseudo.takePseudo_text ⟨by decide, by decide +kernel⟩ (by decide), by decide,
      ⟨":first-chil".toList, 'd', by decide, by decide⟩, by decide +kernel⟩
  | lastChild =>
    exact ⟨Pseudo.takePseudo_text ⟨by decide, by decide +kernel⟩ (by decide), by decide,
      ⟨":last-chil".toList, 'd', by decide, by decide⟩, by decide +kernel⟩
  | odd => exact Pseudo.standsFor_nthChild (by decide) (by decide)
  | even => exact Pseudo.standsFor_nthChild (by decide) (by decide)
  | nth digits =>
    obtain ⟨hne, hdigits⟩ := Text.isDigits_iff.1 h
    show Pseudo.StandsFor _ (.index (Position.withoutLeadingZeros digits))
    rw [← Position.ofNthChild_digits h]
    exact Pseudo.standsFor_nthChild hne fun c hc => Pseudo.isPlainChar_of_isDigit (hdigits c hc)

/-- The positions of a pseudo-class can be written as a condition. -/
theorem position_isReadable (h : pseudo.isWritten = true) : pseudo.position.isReadable = true := by
  cases pseudo with
  | nth digits => exact Position.isDigits_withoutLeadingZeros (Text.isDigits_iff.1 h).2
  | _ => rfl

end SiblingClass

/-! ## Paths -/

namespace Path

/-- A segment that is the whole selector is the only step. -/
theorem ofSelector_of_read {s : Text} {segment : Segment} {conditions : List Predicate}
    (hread : Segment.read s 0 s = .ok (segment, []))
    (hconditions : predicates s segment = .ok conditions)
    (hrelation : segment.relation = .descendant) (axis : Axis) :
    ofSelector s axis = .ok ⟨[⟨axis, segment.tag, conditions⟩]⟩ := by
  rw [ofSelector, stepsFrom_last hread hconditions rfl hrelation axis]
  rfl

/-- The path of a segment that is the whole selector and has no pseudo-class. -/
theorem ofSelector_whole {s : Text} {segment : Segment} (h : Segment.parse s = .ok segment)
    (hmatched : segment.matched = s) (hpseudo : segment.pseudo = none)
    (hrelation : segment.relation = .descendant) (axis : Axis) :
    ofSelector s axis = .ok ⟨[⟨axis, segment.tag, plainPredicates segment⟩]⟩ := by
  exact ofSelector_of_read (Segment.parse_whole h hmatched).1 (predicates_eq hpseudo) hrelation axis

/-- Behind such a segment a pseudo-class is one more predicate. -/
theorem ofSelector_append_pseudo {s : Text} {segment : Segment} {pseudo : Pseudo}
    {position : Position} (h : Segment.parse s = .ok segment) (hmatched : segment.matched = s)
    (hpseudo : segment.pseudo = none) (hrelation : segment.relation = .descendant)
    (hstands : pseudo.StandsFor position) (axis : Axis) :
    ofSelector (s ++ pseudo.text) axis =
      .ok ⟨[⟨axis, segment.tag, plainPredicates segment ++ [.position position]⟩]⟩ := by
  obtain ⟨rest, htext⟩ : ∃ rest, pseudo.text = ':' :: rest := by
    obtain ⟨name, argument⟩ := pseudo
    cases argument <;> exact ⟨_, rfl⟩
  have htake := hstands.taken
  rw [htext] at htake ⊢
  obtain ⟨matched, span, hread⟩ :=
    Segment.read_append_pseudo h hmatched hpseudo hrelation htake
  apply ofSelector_of_read hread _ hrelation
  rw [predicates]
  simp only [positionPredicate, hstands.meaning]
  rfl

end Path
end TreeSelect
