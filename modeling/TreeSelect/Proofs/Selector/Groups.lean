import TreeSelect.Proofs.Selector.Continued
import TreeSelect.Proofs.Text.Digits

/-!
# Attribute groups

Attribute groups stand one directly after another, each from its opening bracket to the first closing
bracket.  `bracketed` writes them.  Written so, parts that hold no closing bracket are found again:

* `takeGroups_bracketed` and `exists_bracketed`: these texts are what the scan takes.
* `splitGroups_bracketed`: they are cut into the parts again.
* `ofGroups_of_parts`: from parts that name attributes, conditions are read, later ones of a name in
  the place of earlier ones.
* `ofGroups_text` and `ofGroups_bracketed`: conditions that are written are read back.
* `condition_eq_iff` and `ofGroups_exact`: what is read of parts, however they are written.
-/

namespace TreeSelect

/-- Parts in square brackets, one directly after another. -/
def bracketed (parts : List Text) : Text := parts.flatMap fun part => '[' :: part ++ [']']

theorem bracketed_cons (part : Text) (parts : List Text) :
    bracketed (part :: parts) = '[' :: part ++ ']' :: bracketed parts := by
  simp [bracketed]

theorem head_bracketed (parts : List Text) : ∀ c ∈ (bracketed parts).head?, c = '[' := by
  cases parts with
  | nil => simp [bracketed]
  | cons part parts => simp [bracketed_cons]

theorem last_bracketed (parts : List Text) : ∀ c ∈ (bracketed parts).getLast?, c = ']' := by
  intro c hc
  rcases List.eq_nil_or_concat parts with rfl | ⟨before, last, rfl⟩
  · cases hc
  · have htext : bracketed (before.concat last) = bracketed before ++ '[' :: last ++ [']'] := by
      simp [bracketed]
    rw [htext, List.getLast?_concat] at hc
    exact (Option.some.inj hc).symm

theorem bracketed_eq_nil {parts : List Text} : bracketed parts = [] ↔ parts = [] := by
  cases parts with
  | nil => simp [bracketed]
  | cons part parts => simp [bracketed_cons]

namespace Pieces

/-! ## Taking groups -/

/-- Groups end where no further group begins. -/
theorem takeGroups_bracketed {parts : List Text} (h : ∀ part ∈ parts, ']' ∉ part) {rest : Text}
    (hrest : '[' ∉ rest.head?) : takeGroups (bracketed parts ++ rest) = (bracketed parts, rest) := by
  induction parts with
  | nil => exact takeGroups_of_head hrest
  | cons part parts ih =>
    have hlater := ih fun other hother => h other (List.mem_cons_of_mem part hother)
    have hcut : Text.cut? ']' (part ++ ']' :: (bracketed parts ++ rest)) =
        some (part, bracketed parts ++ rest) :=
      Text.cut?_eq_some_iff.2 ⟨rfl, h part List.mem_cons_self⟩
    have htext : bracketed (part :: parts) ++ rest =
        '[' :: (part ++ ']' :: (bracketed parts ++ rest)) := by
      rw [bracketed_cons]
      simp
    rw [htext, takeGroups.eq_def]
    simp only
    split
    case h_1 hnone =>
      rw [hcut] at hnone
      cases hnone
    case h_2 inside after hsome =>
      rw [hcut] at hsome
      cases hsome
      rw [hlater, bracketed_cons]

/-- All that is taken is groups. -/
theorem exists_bracketed (s : Text) :
    ∃ parts, (∀ part ∈ parts, ']' ∉ part) ∧ (takeGroups s).1 = bracketed parts := by
  fun_induction takeGroups s with
  | case1 => exact ⟨[], by simp, rfl⟩
  | case2 rest inside after hcut ih =>
    obtain ⟨parts, hparts, htaken⟩ := ih
    refine ⟨inside :: parts, ?_, ?_⟩
    · intro part hpart
      rcases List.mem_cons.1 hpart with rfl | hlater
      · exact (Text.cut?_eq_some_iff.1 hcut).2
      · exact hparts part hlater
    · rw [htaken, bracketed_cons]
  | case3 => exact ⟨[], by simp, rfl⟩

end Pieces

namespace AttributeConditions

/-! ## Cutting groups -/

/-- Neighbouring groups, without the outermost brackets, are the parts with a pair of brackets between
any two. -/
theorem withoutBrackets_bracketed (part : Text) (parts : List Text) :
    withoutBrackets (bracketed (part :: parts)) = "][".toList.intercalate (part :: parts) := by
  have hends : bracketed (part :: parts) =
      '[' :: ("][".toList.intercalate (part :: parts) ++ [']']) := by
    rw [bracketed_cons, Text.intercalate_cons]
    simp only [List.cons_append, List.cons.injEq, true_and, List.append_assoc]
    congr 1
    induction parts with
    | nil => rfl
    | cons second parts ih =>
      rw [bracketed_cons, List.flatMap_cons]
      simp [ih]
  rw [hends, withoutBrackets, List.getLast?_concat, if_pos rfl, List.dropLast_concat]

theorem splitGroups_cons {c : Char} (h : c ≠ ']') (s : Text) :
    splitGroups (c :: s) = (splitGroups s).modifyHead (c :: ·) := by
  rw [splitGroups]
  rintro rest rfl
  exact absurd rfl h

/-- What holds no closing bracket goes before the first part. -/
theorem splitGroups_append {part : Text} (h : ']' ∉ part) (s : Text) :
    splitGroups (part ++ s) = (splitGroups s).modifyHead (part ++ ·) := by
  induction part with
  | nil => cases hs : splitGroups s <;> simp [hs]
  | cons c part ih =>
    rw [List.mem_cons, not_or] at h
    rw [List.cons_append, splitGroups_cons (Ne.symm h.1), ih h.2, List.modifyHead_modifyHead]
    rfl

theorem splitGroups_intercalate (part : Text) {parts : List Text}
    (h : ∀ other ∈ part :: parts, ']' ∉ other) :
    splitGroups ("][".toList.intercalate (part :: parts)) = part :: parts := by
  induction parts generalizing part with
  | nil =>
    have hpart := splitGroups_append (h part List.mem_cons_self) []
    simpa [splitGroups, Text.intercalate_cons] using hpart
  | cons second parts ih =>
    have hlater := ih second fun other hother => h other (List.mem_cons_of_mem part hother)
    have htext : "][".toList.intercalate (part :: second :: parts) =
        part ++ ']' :: '[' :: "][".toList.intercalate (second :: parts) := by
      rw [Text.intercalate_cons, List.flatMap_cons, Text.intercalate_cons]
      simp
    rw [htext, splitGroups_append (h part List.mem_cons_self), splitGroups, hlater]
    simp

/-- Groups are cut into the parts that they write. -/
theorem splitGroups_bracketed {parts : List Text} (hne : parts ≠ [])
    (h : ∀ part ∈ parts, ']' ∉ part) : splitGroups (withoutBrackets (bracketed parts)) = parts := by
  obtain ⟨part, parts, rfl⟩ := List.exists_cons_of_ne_nil hne
  rw [withoutBrackets_bracketed, splitGroups_intercalate part h]

/-- The condition that is at fault is one of the parts, and what it names cannot be an attribute. -/
theorem mem_of_ofGroups_eq_error {groups part : Text} (h : ofGroups groups = .error part) :
    part ∈ splitGroups (withoutBrackets groups) ∧ isAttributeName (condition part).1 = false := by
  obtain ⟨other, hother, conditions, hfails⟩ := Attempt.foldlM_eq_error h
  split at hfails
  case h_1 name value hcondition =>
    split at hfails
    case isTrue => cases hfails
    case isFalse hname =>
      cases hfails
      rw [hcondition]
      exact ⟨hother, by simpa using hname⟩

/-! ## Writing conditions -/

/-- A condition as it is written, with its value between single quote marks. -/
def conditionText : Text × Option Text → Text
  | (name, none) => name
  | (name, some value) => name ++ '=' :: '\'' :: value ++ ['\'']

/-- No character of an attribute name is blank, an equals sign or a closing bracket. -/
theorem of_isAttributeNameChar {c : Char} (h : isAttributeNameChar c = true) :
    Text.isBlank c = false ∧ c ≠ '=' ∧ c ≠ ']' := by
  have hletters : Text.letterRanges.apart Text.blankRanges = true := by decide +kernel
  have hnumeric : Text.numericRanges.apart Text.blankRanges = true := by decide +kernel
  refine ⟨?_, ?_, ?_⟩
  · simp only [isAttributeNameChar, Bool.or_eq_true, beq_iff_eq] at h
    rcases h with (((hletter | hnumber) | rfl) | rfl) | rfl
    · exact CodeRanges.contains_eq_false hletters hletter
    · exact CodeRanges.contains_eq_false hnumeric hnumber
    · decide
    · decide
    · decide
  · rintro rfl
    have hequals : isAttributeNameChar '=' = false := by decide +kernel
    rw [hequals] at h
    cases h
  · rintro rfl
    have hbracket : isAttributeNameChar ']' = false := by decide +kernel
    rw [hbracket] at h
    cases h

theorem of_isAttributeName {name : Text} (h : isAttributeName name = true) :
    name.trim = name ∧ '=' ∉ name ∧ ']' ∉ name := by
  have hchars : ∀ c ∈ name, Text.isBlank c = false ∧ c ≠ '=' ∧ c ≠ ']' := by
    rw [isAttributeName, Bool.and_eq_true, List.all_eq_true] at h
    exact fun c hc => of_isAttributeNameChar (h.2 c hc)
  refine ⟨Text.trim_of_isTrimmed ⟨?_, ?_⟩, ?_, ?_⟩
  · exact fun c hc => (hchars c (List.mem_of_head? hc)).1
  · exact fun c hc => (hchars c (List.mem_of_getLast? hc)).1
  · exact fun hmem => (hchars '=' hmem).2.1 rfl
  · exact fun hmem => (hchars ']' hmem).2.2 rfl

end AttributeConditions

/-- The marks that can stand around a value. -/
inductive QuoteMark
  | single
  | double
  deriving DecidableEq, Repr

/-- The character of a mark. -/
def QuoteMark.char : QuoteMark → Char
  | .single => '\''
  | .double => '"'

/-- One condition as it is written: the name of an attribute, and the value that it must have, if any,
between two marks. -/
structure WrittenCondition where
  name : Text
  value : Option (QuoteMark × Text)
  deriving DecidableEq, Repr

namespace WrittenCondition

open AttributeConditions

variable {asked : WrittenCondition}

/-- What stands in the brackets. -/
def text (asked : WrittenCondition) : Text :=
  asked.name ++ asked.value.elim [] fun value => '=' :: value.1.char :: value.2 ++ [value.1.char]

/-- What is asked for. -/
def entry (asked : WrittenCondition) : Text × Option Text := (asked.name, asked.value.map Prod.snd)

/-- Whether a condition can be written: its name is one of attributes, and its value does not close the
bracket. -/
structure IsWritable (asked : WrittenCondition) : Prop where
  name : isAttributeName asked.name = true
  value : ∀ value ∈ asked.value, ']' ∉ value.2

instance (asked : WrittenCondition) : Decidable asked.IsWritable :=
  decidable_of_iff
    (isAttributeName asked.name = true ∧ ∀ value ∈ asked.value, ']' ∉ value.2)
    ⟨fun ⟨name, value⟩ => ⟨name, value⟩, fun ⟨name, value⟩ => ⟨name, value⟩⟩

/-- Marks are taken off, whatever stands between them. -/
theorem unquote_quoted (mark : QuoteMark) (value : Text) :
    unquote (mark.char :: value ++ [mark.char]) = value := by
  have hmark : mark.char = '\'' ∨ mark.char = '"' := by
    cases mark with
    | single => exact .inl rfl
    | double => exact .inr rfl
  rw [List.cons_append, unquote, if_pos ⟨hmark, List.getLast?_concat⟩, List.dropLast_concat]

/-- A condition is read as it was written. -/
theorem condition_text (h : isAttributeName asked.name = true) :
    condition asked.text = asked.entry := by
  obtain ⟨htrim, hequals, -⟩ := of_isAttributeName h
  rcases asked with ⟨name, _ | ⟨mark, value⟩⟩
  · have hcut : Text.cut? '=' (name ++ []) = none := by
      rw [List.append_nil]
      exact Text.cut?_eq_none_iff.2 hequals
    simp only [condition, text, entry, Option.elim_none, Option.map_none, hcut]
    rw [List.append_nil, htrim]
  · have hcut : Text.cut? '=' (name ++ ('=' :: mark.char :: value ++ [mark.char])) =
        some (name, mark.char :: value ++ [mark.char]) :=
      Text.cut?_eq_some_iff.2 ⟨by simp, hequals⟩
    have hblank : Text.isBlank mark.char = false := by cases mark <;> decide
    have hvalue : Text.trim (mark.char :: value ++ [mark.char]) =
        mark.char :: value ++ [mark.char] := by
      refine Text.trim_of_isTrimmed ⟨?_, ?_⟩
      · intro c hc
        cases hc
        exact hblank
      · intro c hc
        rw [List.getLast?_concat] at hc
        cases hc
        exact hblank
    simp only [condition, text, entry, Option.elim_some, Option.map_some, hcut]
    rw [htrim, hvalue, unquote_quoted]

theorem closing_not_mem_text (h : asked.IsWritable) : ']' ∉ asked.text := by
  obtain ⟨-, -, hname⟩ := of_isAttributeName h.name
  rcases asked with ⟨name, _ | ⟨mark, value⟩⟩
  · simpa [text] using hname
  · have hmark : mark.char ≠ ']' := by cases mark <;> decide
    simp [text, hname, hmark.symm, h.value _ rfl]

end WrittenCondition

namespace AttributeConditions

/-! ## Reading groups -/

/-- Parts that name attributes are read in their order, and a later one of a name replaces an earlier
one. -/
theorem ofGroups_of_parts {parts : List Text} (hne : parts ≠ []) (hclosing : ∀ part ∈ parts, ']' ∉ part)
    (hnames : ∀ part ∈ parts, isAttributeName (condition part).1 = true) :
    ofGroups (bracketed parts) = .ok (.ofList (parts.map condition)) := by
  rw [ofGroups, splitGroups_bracketed hne hclosing, OrderedMap.ofList, List.foldl_map]
  refine Attempt.foldlM_eq_ok (fun part hpart map => ?_) OrderedMap.empty
  exact if_pos (hnames part hpart)

/-- Conditions that are written one after another are read back. -/
theorem ofGroups_text {written : List WrittenCondition} (hne : written ≠ [])
    (h : ∀ asked ∈ written, asked.IsWritable) :
    ofGroups (bracketed (written.map WrittenCondition.text)) =
      .ok (.ofList (written.map WrittenCondition.entry)) := by
  have hentries : (written.map WrittenCondition.text).map condition =
      written.map WrittenCondition.entry := by
    rw [List.map_map]
    exact List.map_congr_left fun asked hasked => WrittenCondition.condition_text (h asked hasked).name
  rw [← hentries]
  refine ofGroups_of_parts (by simpa using hne) ?_ ?_
  · intro part hpart
    obtain ⟨asked, hasked, rfl⟩ := List.mem_map.1 hpart
    exact WrittenCondition.closing_not_mem_text (h asked hasked)
  · intro part hpart
    obtain ⟨asked, hasked, rfl⟩ := List.mem_map.1 hpart
    rw [WrittenCondition.condition_text (h asked hasked).name]
    exact (h asked hasked).name

/-- An entry with its value, if it has one, between single marks. -/
def quotedEntry (entry : Text × Option Text) : WrittenCondition :=
  ⟨entry.1, entry.2.map (QuoteMark.single, ·)⟩

theorem text_quotedEntry (entry : Text × Option Text) :
    (quotedEntry entry).text = conditionText entry := by
  rcases entry with ⟨name, _ | value⟩
  · exact List.append_nil name
  · exact (List.append_assoc _ _ _).symm

theorem entry_quotedEntry (entry : Text × Option Text) : (quotedEntry entry).entry = entry := by
  rcases entry with ⟨name, _ | value⟩ <;> rfl

theorem isWritable_quotedEntry {entry : Text × Option Text} (h : isAttributeName entry.1 = true)
    (hvalue : ∀ value ∈ entry.2, ']' ∉ value) : (quotedEntry entry).IsWritable where
  name := h
  value := by
    intro value hmem
    obtain ⟨inner, hinner, rfl⟩ := Option.map_eq_some_iff.1 hmem
    exact hvalue inner hinner

theorem not_mem_conditionText {entry : Text × Option Text} (h : isAttributeName entry.1 = true)
    (hvalue : ∀ value ∈ entry.2, ']' ∉ value) : ']' ∉ conditionText entry := by
  rw [← text_quotedEntry]
  exact WrittenCondition.closing_not_mem_text (isWritable_quotedEntry h hvalue)

/-- The entries of conditions, written one after another, are read back and keep their order. -/
theorem ofGroups_bracketed {conditions : AttributeConditions} (hne : conditions.entries ≠ [])
    (hnames : ∀ entry ∈ conditions.entries, isAttributeName entry.1 = true)
    (hvalues : ∀ entry ∈ conditions.entries, ∀ value ∈ entry.2, ']' ∉ value) :
    ofGroups (bracketed (conditions.entries.map conditionText)) = .ok conditions := by
  have hwritable : ∀ asked ∈ conditions.entries.map quotedEntry, asked.IsWritable := by
    intro asked hasked
    obtain ⟨entry, hentry, rfl⟩ := List.mem_map.1 hasked
    exact isWritable_quotedEntry (hnames entry hentry) (hvalues entry hentry)
  have hread := ofGroups_text (mt List.map_eq_nil_iff.1 hne) hwritable
  simpa only [List.map_map, Function.comp_def, text_quotedEntry, entry_quotedEntry, List.map_id',
    OrderedMap.ofList_entries] using hread

/-! ## What parts ask for -/

/-- Whether a text is a value with the marks around it, if it has any: it is the value between two marks
of one kind, or it is the value itself and does not stand between such marks. -/
def Unquotes (written value : Text) : Prop :=
  (∃ mark : QuoteMark, written = mark.char :: value ++ [mark.char]) ∨
    (∀ (mark : QuoteMark) (inner : Text), written ≠ mark.char :: inner ++ [mark.char]) ∧
      value = written

theorem unquotes_unquote (written : Text) : Unquotes written (unquote written) := by
  cases written with
  | nil => exact .inr ⟨by simp, rfl⟩
  | cons c rest =>
    rw [unquote]
    split
    case isTrue h =>
      obtain ⟨hmark, hlast⟩ := h
      obtain ⟨inner, rfl⟩ := List.getLast?_eq_some_iff.1 hlast
      obtain ⟨mark, rfl⟩ : ∃ mark : QuoteMark, c = mark.char := by
        rcases hmark with rfl | rfl
        · exact ⟨.single, rfl⟩
        · exact ⟨.double, rfl⟩
      exact .inl ⟨mark, by rw [List.dropLast_concat, List.cons_append]⟩
    case isFalse h =>
      refine .inr ⟨fun mark inner heq => h ?_, rfl⟩
      obtain ⟨rfl, rfl⟩ := List.cons.inj heq
      exact ⟨by cases mark <;> simp [QuoteMark.char], List.getLast?_concat⟩

theorem unquote_eq_iff {written value : Text} :
    unquote written = value ↔ Unquotes written value := by
  constructor
  · rintro rfl
    exact unquotes_unquote written
  · rintro (⟨mark, rfl⟩ | ⟨hnone, rfl⟩)
    · exact WrittenCondition.unquote_quoted mark value
    · rcases unquotes_unquote value with ⟨mark, hmark⟩ | ⟨-, hsame⟩
      · exact absurd hmark (hnone mark _)
      · exact hsame

/-- Whether a part asks for an attribute, and for a value if it has an equals sign: the name stands
before the first such sign and the value behind it, blanks at the ends of both left out and the value
perhaps between marks. -/
def Asks (part name : Text) : Option Text → Prop
  | none => '=' ∉ part ∧ name = part.trim
  | some value => ∃ before after : Text, part = before ++ '=' :: after ∧ '=' ∉ before ∧
      name = before.trim ∧ Unquotes after.trim value

/-- What is read of a part is what it asks for. -/
theorem condition_eq_iff {part name : Text} {value : Option Text} :
    condition part = (name, value) ↔ Asks part name value := by
  cases hcut : Text.cut? '=' part with
  | none =>
    have hequals := Text.cut?_eq_none_iff.1 hcut
    simp only [condition, hcut, Prod.mk.injEq]
    cases value with
    | none => simp [Asks, hequals, eq_comm]
    | some value =>
      simp only [Asks, reduceCtorEq, and_false, false_iff]
      rintro ⟨before, after, rfl, -⟩
      exact hequals (by simp)
  | some parts =>
    obtain ⟨before, after⟩ := parts
    obtain ⟨rfl, hbefore⟩ := Text.cut?_eq_some_iff.1 hcut
    simp only [condition, hcut, Prod.mk.injEq]
    cases value with
    | none => simp [Asks]
    | some value =>
      simp only [Asks, Option.some.injEq, unquote_eq_iff]
      constructor
      · rintro ⟨rfl, hvalue⟩
        exact ⟨before, after, rfl, hbefore, rfl, hvalue⟩
      · rintro ⟨other, rest, hparts, hother, rfl, hvalue⟩
        have hsame := Text.cut?_eq_some_iff.2 ⟨hparts, hother⟩
        rw [hcut] at hsame
        cases hsame
        exact ⟨rfl, hvalue⟩

/-- Groups written one after another, whatever stands in their parts apart from closing brackets, are
cut into these parts.  They are read exactly if each part names an attribute, and then they are the map
in which the parts are entered in their order. -/
theorem ofGroups_exact {parts : List Text} (hne : parts ≠ [])
    (hclosing : ∀ part ∈ parts, ']' ∉ part) :
    splitGroups (withoutBrackets (bracketed parts)) = parts ∧
      (∀ part name value, condition part = (name, value) ↔ Asks part name value) ∧
      ((∃ conditions, ofGroups (bracketed parts) = .ok conditions) ↔
        ∀ part ∈ parts, isAttributeName (condition part).1 = true) ∧
      ∀ conditions, ofGroups (bracketed parts) = .ok conditions →
        conditions = .ofList (parts.map condition) := by
  have hsplit := splitGroups_bracketed hne hclosing
  have hnames : ∀ conditions, ofGroups (bracketed parts) = .ok conditions →
      ∀ part ∈ parts, isAttributeName (condition part).1 = true := by
    intro conditions h part hpart
    rw [ofGroups, hsplit] at h
    obtain ⟨map, next, hstep⟩ := Attempt.exists_of_foldlM_eq_ok h part hpart
    split at hstep
    rename_i name value hcondition
    rw [hcondition]
    split at hstep
    case isTrue hname => exact hname
    case isFalse => cases hstep
  refine ⟨hsplit, fun _ _ _ => condition_eq_iff, ⟨?_, fun h => ⟨_, ofGroups_of_parts hne hclosing h⟩⟩,
    ?_⟩
  · rintro ⟨conditions, h⟩
    exact hnames conditions h
  · intro conditions h
    have hread := ofGroups_of_parts hne hclosing (hnames conditions h)
    rw [h] at hread
    cases hread
    rfl

/-- Opening brackets and equals signs next to the ends of parts, a lone mark, and a name that occurs
twice. -/
theorem ofGroups_exact_boundaries :
    let parts := ["a", " b = '[x' ", "a==[", "c='"].map String.toList
    parts ≠ [] ∧ (∀ part ∈ parts, ']' ∉ part) ∧
      bracketed parts = "[a][ b = '[x' ][a==[][c=']".toList ∧
      splitGroups (withoutBrackets (bracketed parts)) = parts ∧
      ∃ conditions, ofGroups (bracketed parts) = .ok conditions ∧ conditions.entries = [
        ("a".toList, some "=[".toList), ("b".toList, some "[x".toList),
        ("c".toList, some "'".toList)] := by
  intro parts
  have hclosing : ∀ part ∈ parts, ']' ∉ part := by decide +kernel
  obtain ⟨hsplit, -, hread, hmap⟩ := ofGroups_exact (by decide : parts ≠ []) hclosing
  obtain ⟨conditions, hconditions⟩ := hread.2 (by decide +kernel)
  refine ⟨by decide, hclosing, by decide, hsplit, conditions, hconditions, ?_⟩
  rw [hmap conditions hconditions]
  decide +kernel

end AttributeConditions
end TreeSelect
