import TreeSelect.Proofs.Selector.PseudoBehind
import TreeSelect.Proofs.XPath.Results
import TreeSelect.Proofs.XPath.Steps
import TreeSelect.Proofs.XPath.Unions

/-!
# Expressions that stay below their node

A branch that starts at the context node is written `.//tag` with brackets and further steps behind
it.  Whatever stands in the brackets, as long as it is closed, an expression that such text is read as
gives nodes below the context node alone, or it gives no nodes at all.

* `Onward` is what may stand behind a step of such a branch, and `Below` is the text of one or more
  branches.  What the grammar leaves of such a text is such a text again, or it begins with a slash
  that no rule can go on with.
* `staysBelow_of_parse` is what comes of this for a whole text.
-/

namespace TreeSelect.XPath

open TreeSelect.XPath.Parser TreeSelect.XPath.Grammar TreeSelect.XPath.Lexeme

/-! ## Steps that lead down -/

/-- From its node the expression gives nodes below the node alone, if it gives nodes. -/
def Expr.StaysBelow (e : Expr) : Prop :=
  ∀ tree focus nodes, eval tree focus e = .ok (.nodes nodes) →
    ∀ node ∈ nodes, focus.node ∈ node.ancestors

/-- The axes that lead to a node or down from it. -/
def Axis.IsDownward (axis : Axis) : Prop := axis = .child ∨ axis = .self ∨ axis = .descendantOrSelf

section Walk

variable {tree : Tree} {top : Address}

/-- Whether a node is another or below it. -/
def AtOrBelow (top node : Address) : Prop := ∃ rest, node = top ++ rest

theorem atOrBelow_of_mem_ancestors {node : Address} (h : top ∈ node.ancestors) :
    AtOrBelow top node := by
  obtain ⟨rest, -, rfl⟩ := Address.mem_ancestors.1 h
  exact ⟨rest, rfl⟩

/-- Along a downward axis one stays at the node or below it, and children are below it. -/
theorem Axis.IsDownward.mem_nodes {axis : Axis} (h : axis.IsDownward) {node other : Address}
    (hnode : AtOrBelow top node) (hother : other ∈ axis.nodes tree node) :
    AtOrBelow top other ∧ (axis = .child ∨ top ∈ node.ancestors → top ∈ other.ancestors) := by
  obtain ⟨way, rfl⟩ := hnode
  rcases h with rfl | rfl | rfl
  · obtain ⟨index, rfl, -⟩ := Tree.mem_childrenOf.1 hother
    have hbelow : top ∈ Address.ancestors (top ++ way ++ [.child index]) := by
      rw [List.append_assoc]
      exact Address.mem_ancestors.2 ⟨_, List.append_ne_nil_of_right_ne_nil _ (by simp), rfl⟩
    exact ⟨atOrBelow_of_mem_ancestors hbelow, fun _ => hbelow⟩
  · rw [List.mem_singleton.1 hother]
    exact ⟨⟨way, rfl⟩, fun hcase => hcase.resolve_left (by decide)⟩
  · rcases List.mem_cons.1 hother with rfl | hother
    · exact ⟨⟨way, rfl⟩, fun hcase => hcase.resolve_left (by decide)⟩
    · obtain ⟨rest, hne, rfl, -⟩ := Tree.mem_descendantsOf.1 hother
      have hbelow : top ∈ Address.ancestors (top ++ way ++ rest) := by
        rw [List.append_assoc]
        exact Address.mem_ancestors.2 ⟨_, List.append_ne_nil_of_right_ne_nil _ hne, rfl⟩
      exact ⟨atOrBelow_of_mem_ancestors hbelow, fun _ => hbelow⟩

/-- Downward steps stay at the node or below it, and with a step to children among them below it. -/
theorem walk_downward {steps : List Step} (hsteps : ∀ step ∈ steps, step.axis.IsDownward)
    {nodes found : List Address} (hnodes : ∀ node ∈ nodes, AtOrBelow top node)
    (h : walk tree steps nodes = .ok found) :
    (∀ node ∈ found, AtOrBelow top node) ∧
      ((∃ step ∈ steps, step.axis = .child) ∨ (∀ node ∈ nodes, top ∈ node.ancestors) →
        ∀ node ∈ found, top ∈ node.ancestors) := by
  induction steps generalizing nodes with
  | nil =>
    rw [walk] at h
    cases h
    exact ⟨hnodes, fun hcase => hcase.resolve_left (by simp)⟩
  | cons step steps ih =>
    obtain ⟨axis, test, conditions⟩ := step
    rw [walk] at h
    obtain ⟨reached, hreached, h⟩ := Attempt.bind_eq_ok.1 h
    have hdown := hsteps _ List.mem_cons_self
    have hstep : ∀ other ∈ Address.documentOrder reached, ∃ node ∈ nodes,
        AtOrBelow top other ∧ (axis = .child ∨ top ∈ node.ancestors → top ∈ other.ancestors) := by
      intro other hother
      obtain ⟨node, hnode, list, hlist, hmem⟩ :=
        mem_collect hreached (Address.mem_documentOrder.1 hother)
      have hcandidate := (List.mem_filter.1 ((applyPredicates_sublist hlist).mem hmem)).1
      exact ⟨node, hnode, hdown.mem_nodes (hnodes node hnode) hcandidate⟩
    obtain ⟨hfound, hbelow⟩ := ih (fun step hstep => hsteps step (List.mem_cons_of_mem _ hstep))
      (fun other hother => (hstep other hother).choose_spec.2.1) h
    refine ⟨hfound, fun hcase => hbelow ?_⟩
    rcases hcase with ⟨step, hmem, hchild⟩ | hnodes
    · rcases List.mem_cons.1 hmem with rfl | hmem
      · refine .inr fun other hother => ?_
        obtain ⟨node, -, -, hother⟩ := hstep other hother
        exact hother (.inl hchild)
      · exact .inl ⟨step, hmem, hchild⟩
    · refine .inr fun other hother => ?_
      obtain ⟨node, hnode, -, hother⟩ := hstep other hother
      exact hother (.inr (hnodes node hnode))

/-- A path of downward steps from the context node, one of them to children, stays below it. -/
theorem staysBelow_path {steps : List Step} (hsteps : ∀ step ∈ steps, step.axis.IsDownward)
    (hchild : ∃ step ∈ steps, step.axis = .child) : (Expr.path .context steps).StaysBelow := by
  intro tree focus nodes h
  rw [eval] at h
  obtain ⟨start, hstart, h⟩ := Attempt.bind_eq_ok.1 h
  obtain ⟨found, hfound, h⟩ := Attempt.bind_eq_ok.1 h
  cases h
  rw [startNodes] at hstart
  cases hstart
  refine (walk_downward hsteps ?_ hfound).2 (.inl hchild)
  intro node hnode
  rw [List.mem_singleton.1 hnode]
  exact ⟨[], (List.append_nil _).symm⟩

theorem staysBelow_union {branches : List Expr} (h : ∀ branch ∈ branches, branch.StaysBelow) :
    (Expr.union branches).StaysBelow := by
  intro tree focus nodes heval node hnode
  obtain ⟨-, listing, hlisting, -, hmem⟩ := eval_union_eq_ok.1 heval
  cases hlisting
  obtain ⟨branch, hbranch, found, hvalue, hfound⟩ := (hmem node).1 hnode
  exact h branch hbranch tree focus found hvalue node hfound

theorem staysBelow_binary (operator : Operator) (left right : Expr) :
    (Expr.binary operator left right).StaysBelow := by
  intro tree focus nodes h
  obtain ⟨scalar, hscalar⟩ := eval_binary_eq_ok h
  cases hscalar

end Walk

/-! ## The texts of branches -/

/-- What may stand behind a step of a branch: the end, more characters of the tag, a closed text in
brackets, another step or another branch. -/
inductive Onward : Text → Prop
  | nil : Onward []
  | tag {c : Char} {s : Text} (hc : isTagChar c = true) (hs : Onward s) : Onward (c :: s)
  | brackets {inside s : Text} (hinside : inside.IsClosed) (hs : Onward s) :
      Onward ('[' :: (inside ++ ']' :: s))
  | children {c : Char} {s : Text} (hc : isTagChar c = true) (hs : Onward s) :
      Onward ('/' :: c :: s)
  | descendants {c : Char} {s : Text} (hc : isTagChar c = true) (hs : Onward s) :
      Onward ('/' :: '/' :: c :: s)
  | branch {c : Char} {s : Text} (hc : isTagChar c = true) (hs : Onward s) :
      Onward ('|' :: '.' :: '/' :: '/' :: c :: s)

/-- The text of branches that start at the context node. -/
inductive Below : Text → Prop
  | mk {c : Char} {s : Text} (hc : isTagChar c = true) (hs : Onward s) :
      Below ('.' :: '/' :: '/' :: c :: s)

/-- The signs that are no characters of a tag. -/
theorem not_mem_of_isTagChar {c : Char} (h : isTagChar c = true) :
    c ∉ ['[', ']', '/', '|', '.', '@', ':', '(', ' ', '\t', '\r', '\n'] := by
  intro hmem
  have hsigns : ∀ c ∈ ['[', ']', '/', '|', '.', '@', ':', '(', ' ', '\t', '\r', '\n'],
      c ∈ nameSigns ∧ c ≠ '*' := by decide
  rw [isTagChar_sign (hsigns c hmem).1 (hsigns c hmem).2] at h
  cases h

theorem avoids_of_isTagChar {c : Char} (h : isTagChar c = true) {signs : List Char}
    (hsigns : signs ⊆ ['[', ']', '/', '|', '.', '@', ':', '(', ' ', '\t', '\r', '\n']) (s : Text) :
    Avoids signs (c :: s) :=
  avoids_cons (fun hmem => not_mem_of_isTagChar h (hsigns hmem)) s

namespace Onward

variable {s rest : Text} {c : Char}

theorem skipGap (h : Onward s) : skipGap s = s := by
  cases h with
  | nil => rfl
  | @tag c s hc =>
    have hgap : ¬ isGap c = true := fun hgap =>
      avoids_of_isTagChar hc (by decide) s c rfl (isGap_iff.1 hgap)
    exact skipGap_cons_of_not_isGap (Bool.eq_false_iff.2 hgap)
  | brackets | children | descendants | branch => exact skipGap_cons_of_not_isGap (by decide)

/-- No name in such a text is one of an axis or of a call. -/
theorem avoids (h : Onward s) : Avoids ['@', '.', '(', ':'] s := by
  cases h with
  | nil => exact avoids_nil _
  | tag hc => exact avoids_of_isTagChar hc (by decide) _
  | brackets | children | descendants | branch => exact avoids_cons (by decide) _

theorem of_tag (h : Onward (c :: s)) (hc : isTagChar c = true) : Onward s := by
  have hsigns := not_mem_of_isTagChar hc
  cases h with
  | tag _ hs => exact hs
  | brackets | children | descendants | branch => exact absurd (by decide) hsigns

/-- A name ends in such a text before another one. -/
theorem dropWhile_isNameChar (h : Onward s) : Onward (s.dropWhile Lexeme.isNameChar) := by
  induction h with
  | nil => exact .nil
  | @tag c s hc hs ih =>
    by_cases hname : Lexeme.isNameChar c = true
    · rw [List.dropWhile_cons_of_pos hname]
      exact ih
    · rw [List.dropWhile_cons_of_neg hname]
      exact .tag hc hs
  | brackets hinside hs =>
    rw [List.dropWhile_cons_of_neg (by decide)]
    exact .brackets hinside hs
  | children hc hs =>
    rw [List.dropWhile_cons_of_neg (by decide)]
    exact .children hc hs
  | descendants hc hs =>
    rw [List.dropWhile_cons_of_neg (by decide)]
    exact .descendants hc hs
  | branch hc hs =>
    rw [List.dropWhile_cons_of_neg (by decide)]
    exact .branch hc hs

theorem behindName (h : Onward s) : Onward (behindName s) := by
  have hdrop := h.dropWhile_isNameChar
  rw [XPath.behindName, hdrop.skipGap]
  exact hdrop

/-- Behind a name test such a text goes on. -/
theorem scanNameTest {name : Text} (h : Onward s) (hscan : scanNameTest s = some (name, rest)) :
    Onward rest := by
  have hplain : ∀ {plain left : Text}, scanPlainName s = some (plain, left) → Onward left := by
    intro plain left hplain
    obtain ⟨c, t, hstart, rfl, -, rfl⟩ := of_scanPlainName hplain
    rw [← List.dropWhile_cons_of_pos (isNameChar_of_isNameStart hstart)]
    exact h.dropWhile_isNameChar
  obtain ⟨rfl, rfl⟩ | hname := of_scanNameTest hscan
  · exact h.of_tag (by simp [isTagChar])
  · obtain hname | ⟨space, localName, after, hcolon, -, -⟩ := of_scanName hname
    · exact hplain hname
    · exact absurd (by decide) ((hplain hcolon).avoids ':' rfl)

end Onward

/-! ## What the grammar reads of such a text -/

variable {inner : Parser Expr} {s rest : Text}

/-- Behind a node test such a text goes on, and the test is not one of an axis. -/
theorem Onward.of_nodeTest {test : NodeTest} (h : Onward s)
    (hgives : nodeTest.Gives s test rest) : Onward rest := by
  have hkind : kindTest.Refuses s := by
    refine (refuses_kind (h.behindName.avoids.mono (by decide)) ?_).rule
    exact fun test s hs => (refuses_exactly_of_avoids hs (by decide)).bind _
  obtain ⟨name, hname, -⟩ := (hgives.of_rule.of_orElse_refuses hkind).of_bind_pure
  exact h.scanNameTest (gives_lexeme hname.of_rule)

/-- The predicates that are read are those in the brackets. -/
theorem Onward.of_predicates (hinner : Yields inner Readable) {values : List Expr} (h : Onward s)
    (hseries : Series (predicate inner) s values rest) : Onward rest := by
  induction hseries with
  | done => exact h
  | @part s middle last value values hgives _ ih =>
    refine ih ?_
    rw [h.skipGap] at hgives
    obtain ⟨⟨taken, htaken, rfl⟩, -⟩ := predicate_of_gives hinner hgives
    generalize htext : '[' :: (taken ++ ']' :: middle) = text at h
    cases h with
    | nil => cases htext
    | tag hc =>
      cases htext
      exact absurd (by decide) (not_mem_of_isTagChar hc)
    | brackets hinside hs =>
      obtain ⟨-, rfl⟩ := htaken.eq_of_append hinside (List.cons.inj htext).2
      exact hs
    | children | descendants | branch => cases htext

/-- A step in such a text leads to children, and behind it the text goes on. -/
theorem Onward.of_step (hinner : Yields inner Readable) {value : Step} (h : Onward s)
    (hgives : (step inner).Gives s value rest) : value.axis = .child ∧ Onward rest := by
  have hpoint : Avoids ['.'] s := h.avoids.mono (by decide)
  have hnone : axisSpecifier.Refuses s :=
    refuses_axisSpecifier (h.avoids.mono (by decide))
      ((h.behindName.avoids.mono (by decide : [':'] ⊆ _)).not_begins (by decide))
  obtain ⟨p, hp, hgives⟩ := hgives.of_rule.of_oneOf
  simp only [List.mem_cons, List.not_mem_nil, or_false] at hp
  rcases hp with rfl | rfl | rfl
  · exact absurd hgives (refuses_abbreviated hpoint (by decide) _).not_gives
  · exact absurd hgives (refuses_abbreviated hpoint (by decide) _).not_gives
  · obtain ⟨axis, middle, haxis, htests⟩ := hgives.of_rule.of_bind_blanks
    obtain ⟨rfl, rfl⟩ := hnone.optional.eq_of_gives haxis
    rw [h.skipGap] at htests
    obtain ⟨test, middle, htest, hbrackets⟩ := htests.of_bind_blanks
    have hmiddle := h.of_nodeTest htest
    rw [hmiddle.skipGap] at hbrackets
    obtain ⟨predicates, hpredicates, rfl⟩ := hbrackets.of_bind_pure
    exact ⟨rfl, hmiddle.of_predicates hinner (hpredicates.of_many hmiddle.skipGap)⟩

/-- The rule for a separator and a step. -/
def partOf (inner : Parser Expr) : Parser (List Step) := do
  let skipped ← pathSeparator
  blanks
  let next ← step inner
  return skipped ++ [next]

/-- A separator and a step in such a text lead down, at last to children. -/
theorem Onward.of_part (hinner : Yields inner Readable) {steps : List Step} (h : Onward s)
    (hgives : (partOf inner).Gives s steps rest) :
    (∀ step ∈ steps, step.axis.IsDownward) ∧ (∃ step ∈ steps, step.axis = .child) ∧ Onward rest := by
  have hpart : ∀ {sign t : Text} {skipped : List Step} {c : Char}, Separator sign skipped →
      isTagChar c = true → Onward (c :: t) → (partOf inner).Gives (sign ++ c :: t) steps rest →
        (∀ step ∈ steps, step.axis.IsDownward) ∧ (∃ step ∈ steps, step.axis = .child) ∧
          Onward rest := by
    intro sign t skipped c hsign hc ht hgives
    have hslash : Avoids ['/'] (c :: t) := avoids_of_isTagChar hc (by decide) t
    obtain ⟨other, middle, hseparator, hgives⟩ := hgives.of_bind_blanks
    obtain ⟨rfl, rfl⟩ := (hsign.reads hslash).eq_of_gives hseparator
    rw [ht.skipGap] at hgives
    obtain ⟨next, hnext, rfl⟩ := hgives.of_bind_pure
    obtain ⟨hchild, hrest⟩ := ht.of_step hinner hnext
    refine ⟨fun step hstep => ?_, ⟨next, by simp, hchild⟩, hrest⟩
    rcases List.mem_append.1 hstep with hstep | hstep
    · cases hsign with
      | descendants =>
        rw [List.mem_singleton.1 hstep]
        exact .inr (.inr rfl)
      | children => cases hstep
    · rw [List.mem_singleton.1 hstep]
      exact .inl hchild
  have hnone (havoids : Avoids ['/'] s) : False :=
    ((refuses_pathSeparator havoids).bind _).not_gives hgives
  cases h with
  | nil => exact (hnone (avoids_nil _)).elim
  | tag hc => exact (hnone (avoids_of_isTagChar hc (by decide) _)).elim
  | brackets | branch => exact (hnone (avoids_cons (by decide) _)).elim
  | children hc hs => exact hpart .children hc (.tag hc hs) hgives
  | descendants hc hs => exact hpart .descendants hc (.tag hc hs) hgives

theorem Onward.of_parts (hinner : Yields inner Readable) {others : List (List Step)} (h : Onward s)
    (hseries : Series (partOf inner) s others rest) :
    (∀ steps ∈ others, (∀ step ∈ steps, step.axis.IsDownward) ∧ ∃ step ∈ steps, step.axis = .child) ∧
      Onward rest := by
  induction hseries with
  | done => exact ⟨by simp, h⟩
  | @part s middle last steps others hgives _ ih =>
    rw [h.skipGap] at hgives
    obtain ⟨hdown, hchild, hmiddle⟩ := h.of_part hinner hgives
    obtain ⟨hothers, hlast⟩ := ih hmiddle
    refine ⟨fun list hlist => ?_, hlast⟩
    rcases List.mem_cons.1 hlist with rfl | hlist
    · exact ⟨hdown, hchild⟩
    · exact hothers list hlist

/-- A text that begins with a slash behind a path: nothing can go on there. -/
def Stuck (s : Text) : Prop := ∃ rest, s = '/' :: rest

theorem Stuck.avoids {signs : List Char} (h : Stuck s) (hsigns : '/' ∉ signs) : Avoids signs s := by
  obtain ⟨rest, rfl⟩ := h
  exact avoids_cons hsigns rest

theorem Stuck.skipGap (h : Stuck s) : skipGap s = s := by
  obtain ⟨rest, rfl⟩ := h
  exact skipGap_cons_of_not_isGap (by decide)

/-- The path of a branch stays below the context node and leaves what goes on, or it ends before the
separator of the first step. -/
theorem Below.of_pathExpr (hinner : Yields inner Readable) {e : Expr} (h : Below s)
    (hgives : (pathExpr inner).Gives s e rest) : e.StaysBelow ∧ Onward rest ∨ Stuck rest := by
  obtain @⟨c, s, hc, hs⟩ := h
  have htext : Onward ('/' :: '/' :: c :: s) := .descendants hc hs
  have hself : (step inner).Reads ('.' :: '/' :: '/' :: c :: s) _ ('/' :: '/' :: c :: s) :=
    reads_selfStep (avoids_cons (by decide) _)
  have hlocation := hgives.of_rule.of_orElse_refuses (refuses_filterPath (.point _))
  have hcontext := hlocation.of_rule.of_orElse_refuses
    (refuses_absolutePath (avoids_cons (by decide) _))
  obtain ⟨steps, hsteps, rfl⟩ := hcontext.of_bind_pure
  obtain ⟨first, middle, hfirst, hsteps⟩ := hsteps.of_rule.of_bind_blanks
  obtain ⟨rfl, rfl⟩ := hself.eq_of_gives hfirst
  rw [htext.skipGap] at hsteps
  obtain ⟨others, hothers, rfl⟩ := hsteps.of_bind_pure
  have hseries : Series (partOf inner) _ others rest := hothers.of_many htext.skipGap
  obtain ⟨hdown, hrest⟩ := htext.of_parts hinner hseries
  cases others with
  | nil =>
    cases hseries
    exact .inr ⟨_, rfl⟩
  | cons next others =>
    refine .inl ⟨staysBelow_path ?_ ?_, hrest⟩
    · intro step hstep
      rcases List.mem_cons.1 hstep with rfl | hstep
      · exact .inr (.inl rfl)
      · obtain ⟨list, hlist, hstep⟩ := List.mem_flatten.1 hstep
        exact (hdown list hlist).1 step hstep
    · obtain ⟨step, hstep, hchild⟩ := (hdown next List.mem_cons_self).2
      exact ⟨step, List.mem_cons_of_mem _ (List.mem_flatten.2 ⟨next, List.mem_cons_self, hstep⟩),
        hchild⟩

/-- The rule for a further branch of a union. -/
def branchOf (inner : Parser Expr) : Parser Expr := do
  let _ ← exactly "|".toList
  blanks
  pathExpr inner

/-- A further branch stays below the context node as the first one does. -/
theorem Onward.of_branch (hinner : Yields inner Readable) {e : Expr} (h : Onward s)
    (hgives : (branchOf inner).Gives s e rest) : e.StaysBelow ∧ Onward rest ∨ Stuck rest := by
  obtain ⟨_, middle, hsign, hgives⟩ := hgives.of_bind_blanks
  have hs := gives_exactly hsign
  cases h with
  | @branch c t hc ht =>
    obtain ⟨-, rfl⟩ := List.cons.inj hs
    rw [skipGap_cons_of_not_isGap (by decide)] at hgives
    exact (Below.mk hc ht).of_pathExpr hinner hgives
  | tag hc =>
    obtain ⟨rfl, -⟩ := List.cons.inj hs
    exact absurd (by decide) (not_mem_of_isTagChar hc)
  | nil | brackets | children | descendants => cases hs

/-- Where nothing can go on there are no further parts. -/
theorem Stuck.of_series {α : Type} {p : Parser α} {values : List α} (h : Stuck s)
    (hp : p.Refuses s) (hseries : Series p s values rest) : values = [] ∧ rest = s := by
  cases hseries with
  | done => exact ⟨rfl, rfl⟩
  | part hgives =>
    rw [h.skipGap] at hgives
    exact absurd hgives hp.not_gives

theorem Stuck.refuses_branchOf (h : Stuck s) (inner : Parser Expr) : (branchOf inner).Refuses s :=
  (refuses_exactly_of_avoids (h.avoids (by decide : '/' ∉ ['|'])) (by decide)).bind _

theorem Onward.of_branches (hinner : Yields inner Readable) {others : List Expr} (h : Onward s)
    (hseries : Series (branchOf inner) s others rest) :
    (∀ other ∈ others, other.StaysBelow) ∨ Stuck rest := by
  induction hseries with
  | done => exact .inl (by simp)
  | @part s middle last e others hgives hlater ih =>
    rw [h.skipGap] at hgives
    rcases h.of_branch hinner hgives with ⟨hbelow, hmiddle⟩ | hstuck
    · refine (ih hmiddle).imp_left fun hothers other hother => ?_
      rcases List.mem_cons.1 hother with rfl | hother
      · exact hbelow
      · exact hothers other hother
    · obtain ⟨-, rfl⟩ := hstuck.of_series (hstuck.refuses_branchOf inner) hlater
      exact .inr hstuck

/-! ## From unions to expressions -/

/-- From the text of branches the rule gives what stays below the context node, or it leaves a slash
with which nothing can go on. -/
def Scoped (p : Parser Expr) : Prop :=
  ∀ s e rest, Below s → p.Gives s e rest → e.StaysBelow ∨ Stuck rest

theorem Below.skipGap (h : Below s) : skipGap s = s := by
  obtain ⟨hc, hs⟩ := h
  exact skipGap_cons_of_not_isGap (by decide)

theorem scoped_unionExpr (hinner : Yields inner Readable) : Scoped (unionExpr inner) := by
  intro s e rest hs hgives
  obtain ⟨first, middle, hfirst, hlater⟩ := hgives.of_rule.of_bind_blanks
  obtain ⟨others, hothers, rfl⟩ := hlater.of_bind_pure
  have hseries : Series (branchOf inner) (Parser.skipGap middle) others rest :=
    hothers.of_many (skipGap_skipGap middle)
  rcases hs.of_pathExpr hinner hfirst with ⟨hbelow, hmiddle⟩ | hstuck
  · rw [hmiddle.skipGap] at hseries
    refine (hmiddle.of_branches hinner hseries).imp_left fun hbranches => ?_
    split
    case isTrue => exact hbelow
    case isFalse =>
      refine staysBelow_union fun branch hbranch => ?_
      rcases List.mem_cons.1 hbranch with rfl | hbranch
      · exact hbelow
      · exact hbranches branch hbranch
  · rw [hstuck.skipGap] at hseries
    obtain ⟨-, rfl⟩ := hstuck.of_series (hstuck.refuses_branchOf inner) hseries
    exact .inr hstuck

theorem scoped_unaryExpr (hinner : Yields inner Readable) : Scoped (unaryExpr inner) := by
  intro s e rest hs hgives
  obtain ⟨signs, middle, hsigns, hunion⟩ := hgives.of_rule.of_bind_blanks
  obtain ⟨operand, hoperand, rfl⟩ := hunion.of_bind_pure
  have hminus : (rule (exactly "-".toList)).Refuses (Parser.skipGap s) := by
    rw [hs.skipGap]
    obtain ⟨hc, ht⟩ := hs
    exact (refuses_exactly_of_avoids (avoids_cons (by decide : '.' ∉ ['-']) _) (by decide)).rule
  obtain ⟨rfl, rfl⟩ := (reads_many (.stop hminus) hs.skipGap).eq_of_gives hsigns
  rw [hs.skipGap] at hoperand
  exact scoped_unionExpr hinner _ operand rest hs hoperand

/-- An operator makes an expression that gives no nodes. -/
theorem staysBelow_foldl {first : Expr} (h : first.StaysBelow) (others : List (Operator × Expr)) :
    Expr.StaysBelow (others.foldl (fun left other => .binary other.1 left other.2) first) := by
  induction others generalizing first with
  | nil => exact h
  | cons other others ih => exact ih (staysBelow_binary other.1 first other.2)

theorem Scoped.chain {operand : Parser Expr} {operator : Parser Operator} (h : Scoped operand)
    (hoperator : ∀ s, Stuck s → operator.Refuses s) : Scoped (chain operand operator) := by
  intro s e rest hs hgives
  obtain ⟨first, middle, hfirst, hlater⟩ := hgives.of_rule.of_bind_blanks
  obtain ⟨others, hothers, rfl⟩ := hlater.of_bind_pure
  rcases h s first middle hs hfirst with hbelow | hstuck
  · exact .inl (staysBelow_foldl hbelow others)
  · rw [hstuck.skipGap] at hothers
    have hnone := (hoperator middle hstuck).bind fun operator => do
      blanks
      let right ← operand
      return (operator, right)
    obtain ⟨-, rfl⟩ := hstuck.of_series hnone (hothers.of_many hstuck.skipGap)
    exact .inr hstuck

theorem scoped_disjunction (hinner : Yields inner Readable) : Scoped (disjunction inner) := by
  have havoids : ∀ {s}, Stuck s → Avoids ['d', 'm', '+', '-', '<', '>', '!', '=', 'a', 'o'] s :=
    fun h => h.avoids (by decide)
  have hmultiplicative : Scoped (multiplicative inner) :=
    (scoped_unaryExpr hinner).chain fun s hs =>
      (refuses_wordOperator (havoids hs) (by decide)).orElse
        (refuses_wordOperator (havoids hs) (by decide))
  have hadditive : Scoped (additive inner) :=
    hmultiplicative.chain fun s hs => refuses_signOperator (havoids hs) (by decide)
  have hrelational : Scoped (relational inner) :=
    hadditive.chain fun s hs => refuses_signOperator (havoids hs) (by decide)
  have hequality : Scoped (equality inner) :=
    hrelational.chain fun s hs => refuses_signOperator (havoids hs) (by decide)
  have hconjunction : Scoped (conjunction inner) :=
    hequality.chain fun s hs => refuses_wordOperator (havoids hs) (by decide)
  exact hconjunction.chain fun s hs => refuses_wordOperator (havoids hs) (by decide)

/-- An expression that the text of branches is read as stays below the context node. -/
theorem staysBelow_of_parse {s : Text} {e : Expr} (hs : Below s) (h : parse s = .ok e) :
    e.StaysBelow := by
  obtain ⟨inner, hinner, rest, hgives, hrest⟩ := gives_of_parse h
  rw [hs.skipGap] at hgives
  rcases scoped_disjunction hinner s e rest hs hgives with hbelow | hstuck
  · exact hbelow
  · -- the whole text has been read, so that nothing is left in front of a slash
    rw [hstuck.skipGap] at hrest
    obtain ⟨_, rfl⟩ := hstuck
    cases hrest

end TreeSelect.XPath
