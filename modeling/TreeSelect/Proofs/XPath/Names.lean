import TreeSelect.Proofs.XPath.Written

/-!
# Names and what they could be taken for

A name is a plain name or two of them with a colon between them.  The grammar tries other readings of
a name first: the name of an axis, which two colons follow, and a test of the kind of a node, which a
bracket follows.  `behindName` is what stands behind the name characters of a text, and both readings
are refused for what stands there, whatever the name itself looks like.
-/

namespace TreeSelect.XPath

open TreeSelect.XPath.Parser TreeSelect.XPath.Grammar

namespace Lexeme

/-- A name without a colon. -/
def isPlainName : Text → Bool
  | [] => false
  | c :: rest => isNameStart c && rest.all isNameChar

/-- A name: a plain name, or two of them with a colon between them. -/
def isName (s : Text) : Bool :=
  match Text.cut? ':' s with
  | none => isPlainName s
  | some (space, localName) => isPlainName space && isPlainName localName

/-- The star or a name. -/
def isNameTest (s : Text) : Bool := s = ['*'] || isName s

theorem isNameChar_of_isNameStart {c : Char} (h : isNameStart c = true) : isNameChar c = true := by
  simp only [isNameStart, Bool.or_eq_true] at h
  simp only [isNameChar, Char.isAlphanum, Bool.or_eq_true]
  rcases h with h | h
  · exact .inl (.inl (.inl (.inl h)))
  · exact .inl (.inl (.inr h))

/-- A plain name has a first character, and name characters only. -/
theorem isPlainName_spec {s : Text} (h : isPlainName s = true) :
    (∃ c rest, s = c :: rest ∧ isNameStart c = true) ∧ ∀ c ∈ s, isNameChar c = true := by
  cases s with
  | nil => cases h
  | cons c rest =>
    rw [isPlainName, Bool.and_eq_true, List.all_eq_true] at h
    refine ⟨⟨c, rest, rfl, h.1⟩, ?_⟩
    intro d hd
    rcases List.mem_cons.1 hd with rfl | hd
    · exact isNameChar_of_isNameStart h.1
    · exact h.2 d hd

theorem isName_spec {s : Text} (h : isName s = true) :
    isPlainName s = true ∨ ∃ space localName, s = space ++ ':' :: localName ∧
      isPlainName space = true ∧ isPlainName localName = true := by
  unfold isName at h
  split at h
  case h_1 => exact .inl h
  case h_2 space localName hcut =>
    rw [Bool.and_eq_true] at h
    exact .inr ⟨space, localName, (Text.cut?_eq_some_iff.1 hcut).1, h.1, h.2⟩

/-- A name consists of name characters and colons. -/
theorem chars_of_isName {s : Text} (h : isName s = true) :
    ∀ c ∈ s, isNameChar c = true ∨ c = ':' := by
  rcases isName_spec h with hplain | ⟨space, localName, rfl, hspace, hlocal⟩
  · exact fun c hc => .inl ((isPlainName_spec hplain).2 c hc)
  · intro c hc
    rcases List.mem_append.1 hc with hc | hc
    · exact .inl ((isPlainName_spec hspace).2 c hc)
    · rcases List.mem_cons.1 hc with rfl | hc
      · exact .inr rfl
      · exact .inl ((isPlainName_spec hlocal).2 c hc)

theorem isNameTest_spec {s : Text} (h : isNameTest s = true) : s = ['*'] ∨ isName s = true := by
  simpa [isNameTest] using h

/-- A name begins with the first character of a plain name. -/
theorem exists_isNameStart {s : Text} (h : isName s = true) :
    ∃ c rest, s = c :: rest ∧ isNameStart c = true := by
  rcases isName_spec h with hplain | ⟨space, localName, rfl, hspace, -⟩
  · exact (isPlainName_spec hplain).1
  · obtain ⟨⟨c, rest, rfl, hc⟩, -⟩ := isPlainName_spec hspace
    exact ⟨c, rest ++ ':' :: localName, rfl, hc⟩

/-- A name does not begin with a digit. -/
theorem not_isDigit_of_isNameStart {c : Char} (h : isNameStart c = true) : c.isDigit = false := by
  by_cases hdigit : c.isDigit = true
  · have hletter : ((decide ('A'.val ≤ c.val ∧ c.val ≤ 'Z'.val) ||
        decide ('a'.val ≤ c.val) && decide (c.val ≤ 'z'.val)) || c == '_') = true := h
    simp only [Bool.or_eq_true, Bool.and_eq_true, decide_eq_true_eq, UInt32.le_iff_toNat_le,
      beq_iff_eq] at hletter
    simp only [Char.isDigit, Bool.and_eq_true, decide_eq_true_eq, ge_iff_le,
      UInt32.le_iff_toNat_le] at hdigit
    have hnine : '9'.val.toNat = 57 := rfl
    have hupper : 'A'.val.toNat = 65 := rfl
    have hlower : 'a'.val.toNat = 97 := rfl
    rcases hletter with hletter | rfl
    · omega
    · exact absurd hdigit.2 (by decide)
  · simpa using hdigit

/-! ## Scanning names -/

theorem scanPlainName_append {s rest : Text} (hs : isPlainName s = true)
    (hrest : ∀ c ∈ rest.head?, isNameChar c = false) :
    scanPlainName (s ++ rest) = some (s, rest) := by
  obtain ⟨⟨c, t, rfl, hc⟩, hchars⟩ := isPlainName_spec hs
  have ht : ∀ d ∈ t, isNameChar d = true := fun d hd => hchars d (List.mem_cons_of_mem c hd)
  obtain ⟨htake, hdrop⟩ := Text.takeWhile_run ht hrest
  rw [List.cons_append, scanPlainName, if_pos hc, htake, hdrop]

theorem scanName_append {s rest : Text} (hs : isName s = true)
    (hrest : ∀ c ∈ rest.head?, isNameChar c = false ∧ c ≠ ':') :
    scanName (s ++ rest) = some (s, rest) := by
  have hchars : ∀ c ∈ rest.head?, isNameChar c = false := fun c hc => (hrest c hc).1
  rcases isName_spec hs with hplain | ⟨space, localName, rfl, hspace, hlocal⟩
  · unfold scanName
    rw [scanPlainName_append hplain hchars]
    split
    case h_1 heq => cases heq
    case h_2 heq =>
      cases heq
      exact absurd rfl (hrest ':' rfl).2
    case h_3 heq =>
      cases heq
      rfl
  · have hcolon : ∀ c ∈ (':' :: (localName ++ rest)).head?, isNameChar c = false := by
      intro c hc
      cases hc
      decide
    unfold scanName
    rw [List.append_assoc, List.cons_append, scanPlainName_append hspace hcolon]
    simp only [scanPlainName_append hlocal hchars]

theorem scanNameTest_append {s rest : Text} (hs : isNameTest s = true)
    (hrest : ∀ c ∈ rest.head?, isNameChar c = false ∧ c ≠ ':') :
    scanNameTest (s ++ rest) = some (s, rest) := by
  rcases isNameTest_spec hs with rfl | hname
  · rfl
  · obtain ⟨c, t, hcons, hc⟩ := exists_isNameStart hname
    have hstar : c ≠ '*' := by
      intro hcase
      subst hcase
      revert hc
      decide
    have hscan := scanName_append hname hrest
    unfold scanNameTest
    split
    case h_1 heq =>
      rw [hcons, List.cons_append] at heq
      cases heq
      exact absurd rfl hstar
    case h_2 => exact hscan

end Lexeme

open Lexeme

/-! ## What stands behind a name -/

/-- The text behind the name characters with which a text begins, without the gap before it. -/
def behindName (s : Text) : Text := skipGap (s.dropWhile Lexeme.isNameChar)

/-- A word of name characters before a sign is all of the name characters of the text. -/
theorem behindName_word {word after : Text} (hword : ∀ c ∈ word, Lexeme.isNameChar c = true)
    (hafter : ¬ Avoids ['(', ':'] (skipGap after)) : behindName (word ++ after) = skipGap after := by
  have hhead : ∀ c ∈ after.head?, Lexeme.isNameChar c = false := by
    intro c hc
    rcases isGap_or_mem_skipGap c hc with hgap | hsign
    · simp only [isGap, Bool.or_eq_true, beq_iff_eq] at hgap
      rcases hgap with ((rfl | rfl) | rfl) | rfl <;> decide
    · by_cases hname : c ∈ ['(', ':']
      · simp only [List.mem_cons, List.not_mem_nil, or_false] at hname
        rcases hname with rfl | rfl <;> decide
      · refine absurd (fun d hd => ?_) hafter
        rw [Option.mem_unique hd hsign]
        exact hname
  rw [behindName, (Text.takeWhile_run hword hhead).2]

/-- Behind a name test stands neither a bracket nor a pair of colons, where none stands behind the
text. -/
theorem behindName_of_isNameTest {s rest : Text} (hs : isNameTest s = true) (hrest : Ends rest) :
    Avoids ['('] (behindName (s ++ rest)) ∧ ¬ "::".toList <+: behindName (s ++ rest) := by
  rcases isNameTest_spec hs with rfl | hname
  · exact ⟨avoids_cons (by decide) rest, (avoids_cons (by decide : '*' ∉ [':']) rest).not_begins
      (by decide)⟩
  rcases isName_spec hname with hplain | ⟨space, localName, rfl, hspace, hlocal⟩
  · have hbehind : behindName (s ++ rest) = skipGap rest := by
      rw [behindName, (Text.takeWhile_run (isPlainName_spec hplain).2 hrest.lexeme).2]
    rw [hbehind]
    exact ⟨hrest.name.mono (by simp), hrest.name.not_begins (by decide)⟩
  · have hbehind : behindName (space ++ ':' :: localName ++ rest) = ':' :: (localName ++ rest) := by
      rw [behindName, List.append_assoc, List.dropWhile_append_of_pos (isPlainName_spec hspace).2,
        List.cons_append, List.dropWhile_cons_of_neg (by decide),
        skipGap_cons_of_not_isGap (by decide)]
    rw [hbehind]
    refine ⟨avoids_cons (by decide) _, ?_⟩
    intro hcase
    rcases hcase with ⟨after, hafter⟩
    obtain ⟨⟨c, t, rfl, hc⟩, -⟩ := isPlainName_spec hlocal
    cases hafter
    revert hc
    decide

/-! ## Other readings of a name -/

/-- A choice between fixed texts refuses, or it reads one of them. -/
theorem oneOf_refuses_or_reads {α : Type} (choices : List (Text × α)) (s : Text) :
    (oneOf (choices.map fun choice => do let _ ← exactly choice.1; return choice.2)).Refuses s ∨
      ∃ choice ∈ choices, ∃ after, s = choice.1 ++ after ∧
        (oneOf (choices.map fun choice => do let _ ← exactly choice.1; return choice.2)).Reads s
          choice.2 after := by
  induction choices with
  | nil => exact .inl fun _ => ⟨0, rfl⟩
  | cons choice choices ih =>
    by_cases hprefix : choice.1 <+: s
    · obtain ⟨after, rfl⟩ := hprefix
      refine .inr ⟨choice, List.mem_cons_self, after, rfl, ?_⟩
      exact reads_oneOf_cons ((reads_exactly choice.1 after).bind (reads_pure choice.2 after)) _
    · have hfirst := (refuses_exactly hprefix).bind fun _ => (pure choice.2 : Parser α)
      rcases ih with hrefuses | ⟨other, hother, after, hs, hreads⟩
      · exact .inl (hfirst.orElse hrefuses)
      · exact .inr ⟨other, List.mem_cons_of_mem choice hother, after, hs,
          hfirst.oneOf_cons_reads hreads⟩

theorem isName_axisName (axis : Axis) : isName axis.name = true := by
  cases axis <;> decide

/-- There is no axis where no colons stand behind the name. -/
theorem refuses_axisSpecifier {s : Text} (hat : Avoids ['@'] s)
    (hcolons : ¬ "::".toList <+: behindName s) : axisSpecifier.Refuses s := by
  have hsign := (refuses_exactly_of_avoids hat (by decide : ¬ Avoids ['@'] "@".toList)).bind
    fun _ => (pure Axis.attribute : Parser Axis)
  refine Refuses.rule (hsign.rule.orElse ?_)
  rcases oneOf_refuses_or_reads (axes.map fun axis => (axis.name, axis)) s with
    hrefuses | ⟨choice, hchoice, after, hs, hreads⟩
  · rw [List.map_map] at hrefuses
    exact hrefuses.rule.bind _
  · rw [List.map_map] at hreads
    obtain ⟨axis, -, rfl⟩ := List.mem_map.1 hchoice
    have hword : axis.name.all Lexeme.isNameChar = true := by
      cases axis <;> decide
    have hnext : (exactly "::".toList).Refuses (skipGap after) := by
      refine refuses_exactly fun hprefix => hcolons ?_
      have hafter : ¬ Avoids ['(', ':'] (skipGap after) :=
        fun havoids => havoids.not_begins (by decide) hprefix
      rw [hs, behindName_word (List.all_eq_true.1 hword) hafter]
      exact hprefix
    exact hreads.rule.bind_refuses ((reads_blanks after).bind_refuses (hnext.bind _))

/-- The words for the kinds of nodes. -/
def kindWords : List (Text × NodeTest) :=
  [("node".toList, .node), ("text".toList, .text), ("comment".toList, .comment)]

/-- The words for the kinds of nodes are read, since none begins another. -/
theorem reads_nodeType {kind : Text × NodeTest} (hkind : kind ∈ kindWords) (after : Text) :
    nodeType.Reads (kind.1 ++ after) kind.2 after := by
  have hread : ∀ earlier later, kindWords = earlier ++ kind :: later →
      (∀ other ∈ earlier, ¬ other.1 <+: kind.1 ++ after) →
        nodeType.Reads (kind.1 ++ after) kind.2 after := by
    intro earlier later hwords hearlier
    have hchoice := (reads_choice earlier kind later hearlier).rule
    rw [← hwords] at hchoice
    exact hchoice
  have hletters : ∀ other ∈ kindWords.take 2, ¬ Avoids ['n', 't'] other.1 := by decide
  simp only [kindWords, List.mem_cons, List.not_mem_nil, or_false] at hkind
  rcases hkind with rfl | rfl | rfl
  · exact hread [] _ rfl fun _ hother => absurd hother List.not_mem_nil
  · refine hread [("node".toList, .node)] _ rfl fun other hother => ?_
    rw [List.mem_singleton.1 hother]
    exact (avoids_cons (by decide : 't' ∉ ['n']) _).not_begins (by decide)
  · exact hread (kindWords.take 2) _ rfl fun other hother =>
      (avoids_cons (by decide : 'c' ∉ ['n', 't']) _).not_begins (hletters other hother)

theorem nodeType_refuses_or_reads (s : Text) :
    nodeType.Refuses s ∨ ∃ kind ∈ kindWords, ∃ after, s = kind.1 ++ after ∧
      nodeType.Reads s kind.2 after := by
  rcases oneOf_refuses_or_reads kindWords s with hrefuses | ⟨kind, hkind, after, hs, hreads⟩
  · exact .inl hrefuses.rule
  · exact .inr ⟨kind, hkind, after, hs, hreads.rule⟩

/-- There is no test of the kind of a node where no bracket stands behind the word. -/
theorem refuses_kind {α : Type} {s : Text} (hbracket : Avoids ['('] (behindName s))
    {next : NodeTest → Parser α} (hnext : ∀ test s, Avoids ['('] s → (next test).Refuses s) :
    (nodeType >>= fun test => blanks >>= fun _ => next test).Refuses s := by
  rcases nodeType_refuses_or_reads s with hrefuses | ⟨kind, hkind, after, hs, hreads⟩
  · exact hrefuses.bind _
  · have hword : ∀ kind ∈ kindWords, kind.1.all Lexeme.isNameChar = true := by decide
    have hafter : Avoids ['('] (skipGap after) := by
      by_cases havoids : Avoids ['(', ':'] (skipGap after)
      · exact havoids.mono (by simp)
      · rw [hs, behindName_word (List.all_eq_true.1 (hword kind hkind)) havoids] at hbracket
        exact hbracket
    exact hreads.bind_refuses ((reads_blanks after).bind_refuses (hnext kind.2 _ hafter))

/-! ## Name tests -/

/-- The node test that a name or the star writes. -/
def NodeTest.ofName (name : Text) : NodeTest := if name = ['*'] then .any else .name name

theorem NodeTest.ofName_of_isName {name : Text} (h : isName name = true) :
    NodeTest.ofName name = .name name := by
  rw [ofName, if_neg]
  rintro rfl
  exact absurd h (by decide)

/-- A name test is read as a test of the name, also where it is the word for an axis or for a kind
of nodes. -/
theorem reads_nodeTest {name rest : Text} (hname : isNameTest name = true) (hrest : Ends rest) :
    nodeTest.Reads (name ++ rest) (NodeTest.ofName name) rest := by
  have hkind : kindTest.Refuses (name ++ rest) := by
    refine (refuses_kind (behindName_of_isNameTest hname hrest).1 ?_).rule
    exact fun test s hs => (refuses_exactly_of_avoids hs (by decide)).bind _
  have hhead : ∀ c ∈ rest.head?, Lexeme.isNameChar c = false ∧ c ≠ ':' := by
    intro c hc
    refine ⟨hrest.lexeme c hc, ?_⟩
    intro hcase
    subst hcase
    have hname := hrest.name
    cases rest with
    | nil => cases hc
    | cons d rest =>
      cases hc
      rw [skipGap_cons_of_not_isGap (by decide)] at hname
      exact hname ':' rfl (by decide)
  have hscan := (reads_lexeme (scanNameTest_append hname hhead)).rule
  exact (hkind.orElse_reads (hscan.bind (reads_pure (NodeTest.ofName name) rest))).rule

end TreeSelect.XPath
