import TreeSelect.Proofs.XPath.Operands

/-!
# Steps with the name of their axis

A step may name its axis before two colons.  The name of an axis is a name like any other, and the
grammar tries calls of functions and numbers first, so that the colons decide.  A gap may part them
from the name.

* `reads_axisSpecifier`: the name of an axis and two colons are read as the axis.
* `refuses_filterPath_axis`: they are taken for no primary expression.
* `parse_namedStep`: with a name behind them they are one step from the context node.
-/

namespace TreeSelect.XPath

open TreeSelect.XPath.Parser TreeSelect.XPath.Grammar TreeSelect.XPath.Lexeme

/-! ## Colons behind a name -/

section Colons

variable {after s : Text} (hafter : skipGap after = "::".toList ++ s)

include hafter

theorem head_of_colons : ∀ c ∈ after.head?, (isGap c || c == ':') = true := by
  intro c hc
  rcases isGap_or_mem_skipGap c hc with hgap | hcolon
  · rw [hgap, Bool.true_or]
  · rw [hafter] at hcolon
    cases hcolon
    rfl

/-- Of the names of axes none is read but the one that stands before the colons. -/
theorem reads_axisName (axis : Axis) : axisName.Reads (axis.name ++ after) axis after := by
  have hmem : axis ∈ axes := by
    cases axis <;> decide
  have horder : (axes.map fun axis => (axis.name, axis)).Pairwise fun first second =>
      ¬ first.1 <+: second.1 := by decide
  have hname : ∀ axis : Axis, ∀ c ∈ axis.name, (isGap c || c == ':') = false := by
    intro axis
    cases axis <;> decide
  obtain ⟨earlier, later, haxes⟩ := List.append_of_mem hmem
  rw [haxes, List.map_append, List.map_cons] at horder
  have hearlier : ∀ other ∈ earlier.map fun axis => (axis.name, axis),
      ¬ other.1 <+: axis.name ++ after := by
    intro other hother hprefix
    refine (List.pairwise_append.1 horder).2.2 other hother _ List.mem_cons_self ?_
    obtain ⟨axis, -, rfl⟩ := List.mem_map.1 hother
    exact prefix_of_head (hname axis) (head_of_colons hafter) hprefix
  have hchoice := reads_choice _ (axis.name, axis) (later.map fun axis => (axis.name, axis)) hearlier
  rw [← List.map_cons (f := fun axis : Axis => (axis.name, axis)), ← List.map_append, ← haxes,
    List.map_map] at hchoice
  exact hchoice.rule

omit hafter in
theorem avoids_axisName (axis : Axis) (s : Text) :
    Avoids ['(', '"', '\'', '/', '.', '@'] (axis.name ++ s) := by
  cases axis <;> exact avoids_cons (by decide) _

theorem reads_axisSpecifier (axis : Axis) : axisSpecifier.Reads (axis.name ++ after) axis s := by
  have hat := (avoids_axisName axis after).mono (by decide : ['@'] ⊆ _)
  have hsign := (refuses_exactly_of_avoids hat (by decide : ¬ Avoids ['@'] "@".toList)).bind
    fun _ => (pure Axis.attribute : Parser Axis)
  have hcolons : (do let _ ← exactly "::".toList; return axis : Parser Axis).Reads
      (skipGap after) axis s := by
    rw [hafter]
    exact (reads_exactly "::".toList s).bind (reads_pure axis s)
  exact (hsign.rule.orElse_reads
    ((reads_axisName hafter axis).bind ((reads_blanks after).bind hcolons))).rule

/-- The two colons are no colon of a name. -/
theorem scanName_axis (axis : Axis) : scanName (axis.name ++ after) = some (axis.name, after) := by
  have hplain : isPlainName axis.name = true := by
    cases axis <;> decide
  have hhead : ∀ c ∈ after.head?, Lexeme.isNameChar c = false := by
    intro c hc
    have hcolon := head_of_colons hafter c hc
    rw [Bool.or_eq_true, isGap_iff, beq_iff_eq] at hcolon
    have hsigns : ∀ c ∈ [' ', '\t', '\r', '\n', ':'], Lexeme.isNameChar c = false := by decide
    exact hsigns c (by simpa [or_assoc] using hcolon)
  unfold scanName
  rw [scanPlainName_append hplain hhead]
  split
  case h_1 heq => cases heq
  case h_2 rest heq =>
    cases heq
    rw [skipGap_cons_of_not_isGap (by decide)] at hafter
    cases hafter
    rfl
  case h_3 heq => exact heq.symm

/-- Colons behind a name make neither a call nor a test of the kind of a node of it. -/
theorem refuses_functionCall_axis (axis : Axis) :
    (functionCall expr).Refuses (axis.name ++ after) := by
  have hword : ∀ c ∈ axis.name, Lexeme.isNameChar c = true := by
    cases axis <;> decide
  have hstarts : Starts axis.name :=
    starts_of_isNameTest (by simp [isNameTest, isName_axisName axis])
  have hbracket : Avoids ['('] (skipGap after) := by
    rw [hafter]
    exact avoids_cons (by decide) _
  have hbehind : behindName (axis.name ++ after) = skipGap after := by
    refine behindName_word hword fun havoids => ?_
    rw [hafter] at havoids
    exact havoids ':' rfl (by decide)
  have hkind : (do let _ ← nodeType; blanks; exactly "(".toList : Parser Text).Refuses
      (axis.name ++ after) := by
    rw [← hbehind] at hbracket
    exact refuses_kind hbracket fun _ _ hs => refuses_exactly_of_avoids hs (by decide)
  have hblanks := reads_blanks (axis.name ++ after)
  rw [(hstarts.append _).skipGap] at hblanks
  have hopen : (exactly "(".toList).Refuses (skipGap after) :=
    refuses_exactly_of_avoids hbracket (by decide)
  exact (hkind.absent.bind_refuses (hblanks.bind_refuses
    ((reads_lexeme (scanName_axis hafter axis)).rule.bind_refuses
      ((reads_blanks after).bind_refuses (hopen.bind _))))).rule

theorem refuses_filterPath_axis (axis : Axis) : (filterPath expr).Refuses (axis.name ++ after) := by
  have havoids := avoids_axisName axis after
  have hnumber : number.Refuses (axis.name ++ after) := by
    cases axis <;> exact refuses_number (by decide) (by decide) _
  have hprimary : (primary expr).Refuses (axis.name ++ after) := by
    refine Refuses.rule (refuses_oneOf ?_)
    intro parser hparser
    simp only [List.mem_cons, List.not_mem_nil, or_false] at hparser
    rcases hparser with rfl | rfl | rfl | rfl
    · exact (refuses_exactly_of_avoids havoids (by decide)).bind _
    · exact refuses_literal (havoids.mono (by decide))
    · exact hnumber
    · exact refuses_functionCall_axis hafter axis
  exact ((hprimary.bind _).rule.bind _).rule

end Colons

/-! ## Steps -/

/-- An axis before two colons and a name are a step. -/
theorem written_namedStep (axis : Axis) {name : Text} (hname : isNameTest name = true) :
    Written (step expr) false stepSigns (axis.name ++ ("::".toList ++ name))
      (.mk axis (.ofName name) []) where
  starts := (starts_of_isNameTest (by simp [isNameTest, isName_axisName axis])).append _
  reads := by
    intro rest hrest
    have htext : axis.name ++ ("::".toList ++ name) ++ rest =
        axis.name ++ ("::".toList ++ (name ++ ([] ++ rest))) := by simp
    have hskip : skipGap ("::".toList ++ (name ++ ([] ++ rest))) =
        "::".toList ++ (name ++ ([] ++ rest)) := skipGap_cons_of_not_isGap (by decide)
    have hpoint := (avoids_axisName axis ("::".toList ++ (name ++ ([] ++ rest)))).mono
      (by decide : ['.'] ⊆ _)
    rw [htext]
    exact readsUpTo_step hpoint
      (readsUpTo_axisStep hname (reads_axisSpecifier hskip axis).optional .none hrest)

/-- An axis, two colons and a name are read as one step from the context node. -/
theorem parse_namedStep (axis : Axis) {name : Text} (hname : isName name = true) :
    parse (axis.name ++ ("::".toList ++ name)) =
      .ok (.path .context [.mk axis (.name name) []]) := by
  have hnameTest : isNameTest name = true := by simp [isNameTest, hname]
  have hstep := (written_namedStep axis hnameTest).oneStep
  rw [NodeTest.ofName_of_isName hname] at hstep
  have hpath := written_pathFromContext
    (fun rest => by
      rw [List.append_assoc, List.append_assoc]
      exact refuses_filterPath_axis (skipGap_cons_of_not_isGap (by decide)) axis)
    (fun rest => by
      rw [List.append_assoc]
      exact (avoids_axisName axis _).mono (by decide))
    hstep
  exact hpath.expression.parse

end TreeSelect.XPath
