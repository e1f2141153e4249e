import TreeSelect.Proofs.Selector.Written

/-!
# Reading segments that are written

The parts of a segment, written one after another as `tag#id.class[name][name='value']:name(argument)`
and with the child sign behind them, are read back as they were, whatever blanks stand around them
(`parse_written`).
-/

namespace TreeSelect.Segment

/-- The parts of one segment.  Before the child sign, if there is one, stand blanks. -/
structure Parts where
  tag : Option Text
  id : Option Text
  classes : List Text
  attributes : AttributeConditions
  pseudo : Option Pseudo
  child : Option Text
  deriving DecidableEq, Repr

namespace Parts

/-- The parts as they are written. -/
def text (parts : Parts) : Text :=
  parts.tag.getD [] ++ parts.id.elim [] ('#' :: ·) ++ parts.classes.flatMap ('.' :: ·) ++
    bracketed (parts.attributes.entries.map AttributeConditions.conditionText) ++
    parts.pseudo.elim [] (fun pseudo =>
      ':' :: pseudo.name ++ pseudo.argument.elim [] ('(' :: · ++ [')'])) ++
    parts.child.elim [] (· ++ ['>'])

/-- Whether the parts can be written so that they can be told apart again. -/
structure IsWritable (parts : Parts) : Prop where
  tag : ∀ tag ∈ parts.tag, tag ≠ [] ∧ ∀ c ∈ tag, isTagChar c = true
  id : ∀ id ∈ parts.id, id ≠ [] ∧ ∀ c ∈ id, isNameChar c = true
  classes : ∀ name ∈ parts.classes, name ≠ [] ∧ ∀ c ∈ name, isNameChar c = true
  names : ∀ entry ∈ parts.attributes.entries, AttributeConditions.isAttributeName entry.1 = true
  values : ∀ entry ∈ parts.attributes.entries, ∀ value ∈ entry.2, ']' ∉ value
  pseudo : ∀ pseudo ∈ parts.pseudo, pseudo.name ≠ [] ∧ ∀ c ∈ pseudo.name, isNameChar c = true
  lower : ∀ pseudo ∈ parts.pseudo, pseudo.name.lower = pseudo.name
  argument : ∀ pseudo ∈ parts.pseudo, ∀ argument ∈ pseudo.argument,
    argument.trim = argument ∧ Text.PairsUp 0 argument
  child : ∀ blanks ∈ parts.child, ∀ c ∈ blanks, Text.isBlank c = true
  describes : parts.tag.isSome ∨ parts.id.isSome ∨ parts.classes ≠ [] ∨
    parts.attributes.entries ≠ [] ∨ parts.pseudo.isSome

variable {parts : Parts}

/-! ## As pieces -/

/-- The parts as the pieces of a text. -/
def pieces (parts : Parts) : Pieces where
  tag := parts.tag.getD []
  id := parts.id.elim [] ('#' :: ·)
  classes := parts.classes.flatMap ('.' :: ·)
  groups := bracketed (parts.attributes.entries.map AttributeConditions.conditionText)
  pseudo := parts.pseudo.map fun pseudo => (pseudo.name, pseudo.argument)
  child := parts.child.elim [] (· ++ ['>'])

theorem text_pieces (parts : Parts) : parts.pieces.text = parts.text := by
  have hpseudo : ∀ pseudo : Option Pseudo,
      Pieces.pseudoText (pseudo.map fun pseudo => (pseudo.name, pseudo.argument)) =
        pseudo.elim [] (fun pseudo =>
          ':' :: pseudo.name ++ pseudo.argument.elim [] ('(' :: · ++ [')'])) := by
    rintro (_ | ⟨name, _ | argument⟩) <;> simp [Pieces.pseudoText]
  simp only [Pieces.text, pieces, text, hpseudo]

theorem isWritten_pieces (h : parts.IsWritable) : parts.pieces.IsWritten where
  tag := by
    intro c hc
    cases htag : parts.tag with
    | none => simp [pieces, htag] at hc
    | some tag => exact (h.tag tag htag).2 c (by simpa [pieces, htag] using hc)
  id := by
    cases hid : parts.id with
    | none => exact .inl (by simp [pieces, hid])
    | some id => exact .inr ⟨id, by simp [pieces, hid], h.id id hid⟩
  classes := by
    have hclasses := h.classes
    cases hlist : parts.classes with
    | nil => exact .inl (by simp [pieces, hlist])
    | cons first others =>
      rw [hlist] at hclasses
      have hchar : ∀ c, isNameChar c = true → isClassChar c = true :=
        fun c hc => by simp [isClassChar, hc]
      refine .inr ⟨first ++ others.flatMap ('.' :: ·), by simp [pieces, hlist], ?_, ?_⟩
      · simp [(hclasses first List.mem_cons_self).1]
      · intro c hc
        rcases List.mem_append.1 hc with hc | hc
        · exact hchar c ((hclasses first List.mem_cons_self).2 c hc)
        · obtain ⟨other, hother, hc⟩ := List.mem_flatMap.1 hc
          rcases List.mem_cons.1 hc with rfl | hc
          · simp [isClassChar]
          · exact hchar c ((hclasses other (List.mem_cons_of_mem first hother)).2 c hc)
  groups := by
    refine ⟨_, ?_, rfl⟩
    intro part hpart
    obtain ⟨entry, hentry, rfl⟩ := List.mem_map.1 hpart
    exact AttributeConditions.not_mem_conditionText (h.names entry hentry) (h.values entry hentry)
  name := by
    intro written hwritten
    obtain ⟨pseudo, hpseudo, rfl⟩ := Option.map_eq_some_iff.1 hwritten
    exact h.pseudo pseudo hpseudo
  argument := by
    intro written hwritten argument hargument
    obtain ⟨pseudo, hpseudo, rfl⟩ := Option.map_eq_some_iff.1 hwritten
    exact (h.argument pseudo hpseudo argument hargument).2
  child := by
    cases hchild : parts.child with
    | none => exact .inl (by simp [pieces, hchild])
    | some blanks => exact .inr ⟨blanks, h.child blanks hchild, by simp [pieces, hchild]⟩

theorem describes_pieces (h : parts.IsWritable) : parts.pieces.describes = true := by
  rw [Pieces.describes]
  rcases h.describes with htag | hid | hclasses | hattributes | hpseudo
  · obtain ⟨tag, htag⟩ := Option.isSome_iff_exists.1 htag
    simp [pieces, htag, (h.tag tag htag).1]
  · obtain ⟨id, hid⟩ := Option.isSome_iff_exists.1 hid
    simp [pieces, hid]
  · obtain ⟨first, others, hlist⟩ := List.exists_cons_of_ne_nil hclasses
    simp [pieces, hlist]
  · have hgroups : parts.pieces.groups ≠ [] :=
      fun hnil => hattributes (List.map_eq_nil_iff.1 (bracketed_eq_nil.1 hnil))
    simp [hgroups]
  · obtain ⟨pseudo, hpseudo⟩ := Option.isSome_iff_exists.1 hpseudo
    simp [pieces, hpseudo]

/-! ## Back to the parts -/

/-- The names of classes contain no point, so that cutting at the points gives them back. -/
theorem classesOf_flatMap {classes : List Text}
    (h : ∀ name ∈ classes, name ≠ [] ∧ ∀ c ∈ name, isNameChar c = true) :
    classesOf (classes.flatMap ('.' :: ·)) = if classes = [] then none else some classes := by
  have hpoint : isNameChar '.' = false := isNameChar_sign (by decide)
  have hnames : ∀ name ∈ classes, '.' ∉ name := by
    intro name hname hmem
    have hchar := (h name hname).2 '.' hmem
    rw [hpoint] at hchar
    cases hchar
  have hfilter : (([] : Text) :: classes).filter (!·.isEmpty) = classes := by
    rw [List.filter_cons, if_neg (by simp), List.filter_eq_self]
    intro name hname
    simpa using (h name hname).1
  rw [classesOf, Text.split_flatMap hnames, hfilter]
  cases classes with
  | nil => rfl
  | cons first others => rfl

/-- The segment that the parts make, written from a position on. -/
theorem made_pieces (h : parts.IsWritable) (start : Nat) :
    made start parts.pieces
        (if parts.attributes.entries = [] then none else some parts.attributes) =
      { tag := parts.tag.getD ['*']
        id := parts.id
        classes := if parts.classes = [] then none else some parts.classes
        attributes := if parts.attributes.entries = [] then none else some parts.attributes
        pseudo := parts.pseudo
        relation := if parts.child.isSome then .child else .descendant
        matched := parts.text
        span := ⟨start, start + parts.text.bytes⟩ } := by
  have htag : (if parts.pieces.tag.isEmpty then ['*'] else parts.pieces.tag) =
      parts.tag.getD ['*'] := by
    cases htag : parts.tag with
    | none => simp [pieces, htag]
    | some tag => simp [pieces, htag, (h.tag tag htag).1]
  have hid : (if parts.pieces.id.isEmpty then none else some (parts.pieces.id.drop 1)) =
      parts.id := by
    cases hid : parts.id with
    | none => simp [pieces, hid]
    | some id => simp [pieces, hid]
  have hpseudo : (made start parts.pieces none).pseudo = parts.pseudo := by
    rcases hpseudo : parts.pseudo with _ | ⟨name, _ | argument⟩
    · simp [made, pieces, hpseudo]
    · have hlower : name.lower = name := h.lower _ hpseudo
      simp [made, pieces, hpseudo, hlower]
    · have hlower : name.lower = name := h.lower _ hpseudo
      have htrim : argument.trim = argument := (h.argument _ hpseudo argument rfl).1
      simp [made, pieces, hpseudo, hlower, htrim]
  have hrelation : (if parts.pieces.child.isEmpty then Relation.descendant else .child) =
      if parts.child.isSome then .child else .descendant := by
    cases hchild : parts.child with
    | none => simp [pieces, hchild]
    | some blanks => simp [pieces, hchild]
  have hclasses : classesOf parts.pieces.classes =
      if parts.classes = [] then none else some parts.classes := classesOf_flatMap h.classes
  simp only [made] at hpseudo
  simp only [made, htag, hid, hclasses, hpseudo, hrelation, text_pieces]

theorem conditionsOf_pieces (h : parts.IsWritable) :
    ConditionsOf parts.pieces.groups
      (if parts.attributes.entries = [] then none else some parts.attributes) := by
  by_cases hempty : parts.attributes.entries = []
  · rw [if_pos hempty]
    exact .inl ⟨by simp [pieces, hempty, bracketed], rfl⟩
  · rw [if_neg hempty]
    refine .inr ⟨?_, parts.attributes, ?_, rfl⟩
    · exact fun hnil => hempty (by simpa using bracketed_eq_nil.1 hnil)
    · exact AttributeConditions.ofGroups_bracketed hempty h.names h.values

end Parts

/-- Segments that are written are read back, whatever blanks stand before and behind them. -/
theorem parse_written {parts : Parts} (h : parts.IsWritable) {before after : Text}
    (hbefore : ∀ c ∈ before, Text.isBlank c = true) (hafter : ∀ c ∈ after, Text.isBlank c = true) :
    parse (before ++ parts.text ++ after) = .ok {
      tag := parts.tag.getD ['*']
      id := parts.id
      classes := if parts.classes = [] then none else some parts.classes
      attributes := if parts.attributes.entries = [] then none else some parts.attributes
      pseudo := parts.pseudo
      relation := if parts.child.isSome then .child else .descendant
      matched := parts.text
      span := ⟨before.bytes, before.bytes + parts.text.bytes⟩ } := by
  have hwritten := Parts.isWritten_pieces h
  have hdescribes := Parts.describes_pieces h
  have hscan : Pieces.scan (parts.text ++ after) = (parts.pieces, after) := by
    rw [← Parts.text_pieces]
    exact Pieces.scan_text hwritten hafter
  -- the text of the parts begins with no blank, so that the blanks before it are what is skipped
  obtain ⟨first, rest, htext, hfirst⟩ := Pieces.begins_text hwritten hdescribes
  rw [Parts.text_pieces] at htext
  have hhead : ∀ c ∈ (parts.text ++ after).head?, Text.isBlank c = false := by
    simp [htext, hfirst]
  obtain ⟨hskipped, hleft⟩ := Text.takeWhile_run hbefore hhead
  rw [← List.append_assoc] at hskipped hleft
  have hread : read (before ++ parts.text ++ after) 0 (before ++ parts.text ++ after) =
      .ok (made before.bytes parts.pieces
        (if parts.attributes.entries = [] then none else some parts.attributes), after) := by
    refine read_eq_ok_iff.2 ⟨parts.pieces, _, ?_, hdescribes, Parts.conditionsOf_pieces h, ?_⟩
    · rw [hleft, hscan]
    · rw [hskipped, Nat.zero_add]
  rw [← Parts.made_pieces h]
  exact parse_eq_ok_iff.2 ⟨after, hread⟩

/-- Parts with brackets, equals signs and quote marks in values, and parentheses in an argument. -/
def Parts.intricate : Parts where
  tag := some "ul".toList
  id := some "x-1".toList
  classes := ["a".toList, "b-c".toList]
  attributes := .ofList [("href".toList, some "a[b=\"c".toList), ("data-x".toList, none),
    ("k".toList, some "'d'".toList)]
  pseudo := some ⟨"not".toList, some "p(q) (r)".toList⟩
  child := some "  ".toList

theorem parse_written_intricate :
    parse " \tul#x-1.a.b-c[href='a[b=\"c'][data-x][k=''d'']:not(p(q) (r))  > ".toList = .ok {
      tag := "ul".toList
      id := some "x-1".toList
      classes := some ["a".toList, "b-c".toList]
      attributes := some (.ofList [("href".toList, some "a[b=\"c".toList), ("data-x".toList, none),
        ("k".toList, some "'d'".toList)])
      pseudo := some ⟨"not".toList, some "p(q) (r)".toList⟩
      relation := .child
      matched := "ul#x-1.a.b-c[href='a[b=\"c'][data-x][k=''d'']:not(p(q) (r))  >".toList
      span := ⟨2, 63⟩ } := by
  have hwritable : Parts.intricate.IsWritable :=
    { tag := by decide +kernel
      id := by decide +kernel
      classes := by decide +kernel
      names := by decide +kernel
      values := by decide +kernel
      pseudo := by decide +kernel
      lower := by decide +kernel
      argument := by decide +kernel
      child := by decide +kernel
      describes := by decide +kernel }
  have hbefore : ∀ c ∈ " \t".toList, Text.isBlank c = true := by decide
  have hafter : ∀ c ∈ " ".toList, Text.isBlank c = true := by decide
  have htext : " \tul#x-1.a.b-c[href='a[b=\"c'][data-x][k=''d'']:not(p(q) (r))  > ".toList =
      " \t".toList ++ Parts.intricate.text ++ " ".toList := by decide +kernel
  rw [htext, parse_written hwritable hbefore hafter]
  exact congrArg Except.ok (by decide +kernel)

end TreeSelect.Segment
