import TreeSelect.Document.InlineStyle
import TreeSelect.Proofs.OrderedMap
import TreeSelect.Proofs.Selector.Splitting
import TreeSelect.Proofs.Text.LowerCase

/-!
# Inline styles are canonical

A style is the list of its declarations with each property once, and what is written of it is read
as the same style.

* `Declares` says what a piece between semicolons declares, and `declaration?_eq_some_iff` that this
  is what is read of it.
* `get?_parse` and `OrderedMap.keys_ofList`: a property has its last value and its first place.
* `Writable` is what holds of each declaration of a style, and for what holds of it the text is cut
  where it was joined (`filterMap_split_text`).
* `parse_canonical`: all of it.
-/

namespace TreeSelect

namespace InlineStyle

/-! ## Declarations -/

/-- Whether a piece of text declares a value of a property: it has a colon, and what stands before
the first colon is not blank, and neither is what stands behind it. -/
def Declares (piece property value : Text) : Prop :=
  ∃ before after : Text, piece = before ++ ':' :: after ∧ ':' ∉ before ∧
    (∃ c ∈ before, Text.isBlank c = false) ∧ (∃ c ∈ after, Text.isBlank c = false) ∧
    property = before.trim.lower ∧ value = after.trim

/-- What is read of a piece is what it declares. -/
theorem declaration?_eq_some_iff {piece property value : Text} :
    declaration? piece = some (property, value) ↔ Declares piece property value := by
  have hempty : ∀ before after : Text,
      ((propertyKey before).isEmpty || after.trim.isEmpty) = false ↔
        before.trim ≠ [] ∧ after.trim ≠ [] := by
    intro before after
    simp [propertyKey, Text.lower]
  constructor
  · intro h
    rw [declaration?] at h
    split at h
    case h_1 => cases h
    case h_2 before after hcut =>
      obtain ⟨hpiece, hbefore⟩ := Text.cut?_eq_some_iff.1 hcut
      split at h
      case isTrue => cases h
      case isFalse hne =>
        cases h
        obtain ⟨hproperty, hvalue⟩ := (hempty before after).1 (Bool.eq_false_iff.2 hne)
        exact ⟨before, after, hpiece, hbefore, Text.trim_ne_nil_iff.1 hproperty,
          Text.trim_ne_nil_iff.1 hvalue, rfl, rfl⟩
  · rintro ⟨before, after, rfl, hbefore, hproperty, hvalue, rfl, rfl⟩
    have hne := (hempty before after).2
      ⟨Text.trim_ne_nil_iff.2 hproperty, Text.trim_ne_nil_iff.2 hvalue⟩
    rw [declaration?, Text.cut?_eq_some_iff.2 ⟨rfl, hbefore⟩]
    simp only [hne]
    rfl

/-- A property has the value that is declared last. -/
theorem get?_parse {text property value : Text} :
    (parse text).get? property = some value ↔
      ∃ earlier piece later, text.split ';' = earlier ++ piece :: later ∧
        Declares piece property.trim.lower value ∧
        ∀ other ∈ later, ∀ value, ¬ Declares other property.trim.lower value := by
  have hlater : ∀ {key : Text} {later : List Text},
      key ∉ (later.filterMap declaration?).map Prod.fst ↔
        ∀ other ∈ later, ∀ value, ¬ Declares other key value := by
    intro key later
    simp only [← declaration?_eq_some_iff, List.mem_map, List.mem_filterMap, Prod.exists]
    grind
  rw [get?, parse, OrderedMap.get?_eq_some_iff, OrderedMap.mem_entries_ofList]
  constructor
  · rintro ⟨before, after, hlist, hafter⟩
    obtain ⟨first, rest, hfirst, -, hrest⟩ := List.filterMap_eq_append_iff.1 hlist
    obtain ⟨skipped, piece, later, rfl, -, hpiece, rfl⟩ := List.filterMap_eq_cons_iff.1 hrest
    refine ⟨first ++ skipped, piece, later, ?_, declaration?_eq_some_iff.1 hpiece, hlater.1 hafter⟩
    rw [hfirst, List.append_assoc]
  · rintro ⟨earlier, piece, later, hsplit, hpiece, hother⟩
    refine ⟨earlier.filterMap declaration?, later.filterMap declaration?, ?_, hlater.2 hother⟩
    rw [hsplit, List.filterMap_append,
      List.filterMap_cons_some (declaration?_eq_some_iff.2 hpiece)]
    rfl

/-! ## Declarations of a style -/

/-- What a declaration must be so that it can be written and read again. -/
structure Writable (property value : Text) : Prop where
  ne_nil : property ≠ []
  trimmed : property.IsTrimmed
  lower : ∀ c ∈ property, c.isUpper = false
  unmarked : ':' ∉ property ∧ ';' ∉ property
  value_ne_nil : value ≠ []
  value_trimmed : value.IsTrimmed
  value_unmarked : ';' ∉ value

theorem Declares.writable {piece property value : Text} (h : Declares piece property value)
    (hpiece : ';' ∉ piece) : Writable property value := by
  obtain ⟨before, after, rfl, hcolon, hproperty, hvalue, rfl, rfl⟩ := h
  have hsemicolon : ';' ∉ before ∧ ';' ∉ after := by
    simpa [not_or] using hpiece
  constructor
  · rw [Text.lower, Ne, List.map_eq_nil_iff]
    exact Text.trim_ne_nil_iff.2 hproperty
  · exact Text.isTrimmed_lower (Text.isTrimmed_trim before)
  · exact fun c hc => Text.isUpper_of_mem_lower hc
  · constructor
    · exact Text.not_mem_lower (by decide) (mt Text.mem_of_mem_trim hcolon)
    · exact Text.not_mem_lower (by decide) (mt Text.mem_of_mem_trim hsemicolon.1)
  · exact Text.trim_ne_nil_iff.2 hvalue
  · exact Text.isTrimmed_trim after
  · exact mt Text.mem_of_mem_trim hsemicolon.2

theorem writable_of_mem {text : Text} {entry : Text × Text}
    (h : entry ∈ (parse text).declarations.entries) : Writable entry.1 entry.2 := by
  obtain ⟨before, after, hlist, -⟩ := OrderedMap.mem_entries_ofList.1 h
  have hmem : entry ∈ (text.split ';').filterMap declaration? := by
    rw [hlist]
    exact List.mem_append_right before List.mem_cons_self
  obtain ⟨piece, hpiece, hdeclares⟩ := List.mem_filterMap.1 hmem
  exact (declaration?_eq_some_iff.1 hdeclares).writable (Text.not_mem_of_mem_split hpiece)

/-! ## Written styles -/

/-- A declaration as it is written. -/
def written (entry : Text × Text) : Text := entry.1 ++ ": ".toList ++ entry.2

/-- Blanks before a written declaration do not matter when it is read. -/
theorem declaration?_written {entry : Text × Text} (h : Writable entry.1 entry.2) (blanks : Text)
    (hblanks : ∀ c ∈ blanks, Text.isBlank c = true) :
    declaration? (blanks ++ written entry) = some entry := by
  obtain ⟨property, value⟩ := entry
  refine declaration?_eq_some_iff.2 ⟨blanks ++ property, ' ' :: value, ?_, ?_, ?_, ?_, ?_, ?_⟩
  · simp [written]
  · rw [List.mem_append, not_or]
    exact ⟨fun hmem => absurd (hblanks ':' hmem) (by decide), h.unmarked.1⟩
  · obtain ⟨c, rest, hproperty⟩ := List.exists_cons_of_ne_nil h.ne_nil
    refine ⟨c, ?_, h.trimmed.1 c (by rw [hproperty]; rfl)⟩
    rw [show property = c :: rest from hproperty]
    simp
  · obtain ⟨c, rest, hvalue⟩ := List.exists_cons_of_ne_nil h.value_ne_nil
    refine ⟨c, ?_, h.value_trimmed.1 c (by rw [hvalue]; rfl)⟩
    rw [show value = c :: rest from hvalue]
    simp
  · rw [Text.trim_append hblanks, Text.trim_of_isTrimmed h.trimmed, Text.lower_of_forall h.lower]
  · rw [Text.trim_cons Text.isBlank_space, Text.trim_of_isTrimmed h.value_trimmed]

/-- Written declarations are cut where they are joined. -/
theorem split_intercalate (first : Text × Text) (others : List (Text × Text))
    (h : ∀ entry ∈ first :: others, Writable entry.1 entry.2) :
    Text.split ';' ("; ".toList.intercalate ((first :: others).map written)) =
      written first :: others.map fun entry => ' ' :: written entry := by
  have hunmarked : ∀ entry ∈ first :: others, ';' ∉ written entry := by
    intro entry hentry
    simp [written, (h entry hentry).unmarked.2, (h entry hentry).value_unmarked]
  obtain ⟨hfirst, hothers⟩ := List.forall_mem_cons.1 hunmarked
  refine Text.split_eq_iff.2 ⟨List.cons_ne_nil _ _, ?_, List.forall_mem_cons.2 ⟨hfirst, ?_⟩⟩
  · rw [List.map_cons, Text.intercalate_cons, Text.intercalate_cons, List.flatMap_map,
      List.flatMap_map]
    rfl
  · intro piece hpiece
    obtain ⟨entry, hentry, rfl⟩ := List.mem_map.1 hpiece
    simpa using hothers entry hentry

/-- What is written of declarations is read as they are. -/
theorem filterMap_split_text {style : InlineStyle}
    (h : ∀ entry ∈ style.declarations.entries, Writable entry.1 entry.2) :
    (style.text.split ';').filterMap declaration? = style.declarations.entries := by
  have htext : style.text =
      "; ".toList.intercalate (style.declarations.entries.map written) := rfl
  rw [htext]
  cases hentries : style.declarations.entries with
  | nil => rfl
  | cons first others =>
    rw [hentries] at h
    rw [split_intercalate first others h]
    obtain ⟨hfirst, hothers⟩ := List.forall_mem_cons.1 h
    have hread : declaration? (written first) = some first :=
      declaration?_written hfirst [] fun c hc => absurd hc List.not_mem_nil
    rw [List.filterMap_cons_some hread, List.filterMap_map]
    congr 1
    calc others.filterMap (declaration? ∘ fun entry => ' ' :: written entry)
        = others.filterMap some := List.filterMap_congr fun entry hentry =>
          declaration?_written (hothers entry hentry) [' '] (by simp [Text.isBlank_space])
      _ = others := List.filterMap_some

/-- The text is cut at its semicolons, all of them, into pieces that may declare something.  The
properties of a style are trimmed, in lower case and different from each other, and they stand in the
order in which they are declared first.  A property has the value that is declared last.  What is
written of a style is read as the same style. -/
theorem parse_canonical (text : Text) :
    let style := parse text
    let declared := (text.split ';').filterMap declaration?
    (∀ pieces : List Text, text.split ';' = pieces ↔
      pieces ≠ [] ∧ [';'].intercalate pieces = text ∧ ∀ piece ∈ pieces, ';' ∉ piece) ∧
    (∀ piece property value,
      declaration? piece = some (property, value) ↔ Declares piece property value) ∧
    style.declarations.keys.Nodup ∧
    (∀ property ∈ style.declarations.keys,
      property ≠ [] ∧ property.IsTrimmed ∧ ∀ c ∈ property, c.isUpper = false) ∧
    style.declarations.keys = (declared.map Prod.fst).eraseDups ∧
    (∀ property value, style.get? property = some value ↔
      ∃ earlier piece later, text.split ';' = earlier ++ piece :: later ∧
        Declares piece property.trim.lower value ∧
        ∀ other ∈ later, ∀ value, ¬ Declares other property.trim.lower value) ∧
    parse style.text = style := by
  intro style declared
  refine ⟨fun _ => Text.split_eq_iff, fun _ _ _ => declaration?_eq_some_iff,
    style.declarations.nodup_keys, ?_, OrderedMap.keys_ofList declared, fun _ _ => get?_parse, ?_⟩
  · intro property hproperty
    obtain ⟨entry, hentry, rfl⟩ := List.mem_map.1 hproperty
    have hwritable := writable_of_mem hentry
    exact ⟨hwritable.ne_nil, hwritable.trimmed, hwritable.lower⟩
  · rw [parse, filterMap_split_text fun entry hentry => writable_of_mem hentry,
      OrderedMap.ofList_entries]

example :
    (parse "Color: red; margin:0 ;color: url(a:b)".toList).text =
      "color: url(a:b); margin: 0".toList := by decide +kernel

end InlineStyle
end TreeSelect
