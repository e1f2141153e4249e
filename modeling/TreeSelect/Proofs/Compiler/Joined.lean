import TreeSelect.Proofs.Compiler.Memoisation
import TreeSelect.Proofs.Path.Spelt
import TreeSelect.Proofs.Selector.Branches

/-!
# Branches joined by the union sign

A selector list compiles to the texts of its branches with `|` between them.  Such a text is read as
one path or as a union of paths (`written_joined`), and either has the nodes of all branches
(`eval_joinedExpr`).

* `branch_leads`: what the text of one branch is read as, and what it leads to.
* `branches_leads` is the induction over the branches, and `branches_spec` what comes of it from the
  root.
-/

namespace TreeSelect

open TreeSelect.XPath TreeSelect.XPath.Parser TreeSelect.XPath.Grammar

/-! ## Unions -/

/-- The expression for several paths with `|` between them. -/
def joinedExpr : List Expr → Expr
  | [single] => single
  | several => .union several

/-- Paths with `|` between them are written as one expression. -/
theorem written_joined {parts : List (Text × Expr)} (hne : parts ≠ [])
    (hparts : ∀ part ∈ parts, Written (pathExpr expr) false pathSigns part.1 part.2) :
    Written expr false disjunctionSigns (['|'].intercalate (parts.map (·.1)))
      (joinedExpr (parts.map (·.2))) := by
  match parts with
  | [] => exact absurd rfl hne
  | [part] =>
    rw [List.map_singleton, List.map_singleton, List.intercalate_singleton]
    exact (hparts part List.mem_cons_self).expression
  | first :: second :: others =>
    have hunion := written_union (hparts first List.mem_cons_self) (List.cons_ne_nil second others)
      fun other hother => hparts other (List.mem_cons_of_mem first hother)
    rw [List.map_cons, Text.intercalate_cons, List.flatMap_map]
    exact hunion.unary.multiplicative.additive.relational.equality.conjunction.disjunction

/-- Several paths together have the nodes of each. -/
theorem eval_joinedExpr {tree : Tree} {focus : Focus} {branches : List Expr} {found : List Address}
    (h : unionNodes tree focus branches = .ok found) :
    ∃ nodes, eval tree focus (joinedExpr branches) = .ok (.nodes nodes) ∧
      ∀ node, node ∈ nodes ↔ node ∈ found := by
  have hunion : ∃ nodes, eval tree focus (.union branches) = .ok (.nodes nodes) ∧
      ∀ node, node ∈ nodes ↔ node ∈ found := by
    refine ⟨Address.documentOrder found, ?_, fun node => Address.mem_documentOrder⟩
    rw [eval, h]
    rfl
  match branches with
  | [] => exact hunion
  | [branch] =>
    obtain ⟨nodes, rest, hvalue, hrest, rfl⟩ := unionNodes_cons_eq_ok.1 h
    rw [unionNodes] at hrest
    cases hrest
    refine ⟨nodes, hvalue, fun node => ?_⟩
    rw [List.append_nil]
  | _ :: _ :: _ => exact hunion

/-- The texts of the branches of a list are read as one expression. -/
theorem parse_joined {list : Text} {parts : List (Text × Expr)}
    (hlength : parts.length = (branches list).length)
    (hparts : ∀ part ∈ parts, Written (pathExpr expr) false pathSigns part.1 part.2) :
    XPath.parse (['|'].intercalate (parts.map (·.1))) = .ok (joinedExpr (parts.map (·.2))) := by
  have hne : parts ≠ [] := by
    rintro rfl
    exact branches_ne_nil list (List.eq_nil_of_length_eq_zero hlength.symm)
  exact (written_joined hne hparts).parse

/-! ## Branches -/

/-- The text of a branch is read as an expression that gives the elements to which the segments of
the branch lead. -/
theorem branch_leads {branch text : Text} {axis : Path.Axis} (h : pathText branch axis = .ok text)
    (hplain : ∀ segments, Segment.chain branch = .ok segments →
      ∀ segment ∈ segments, segment.isPlain = true) :
    ∃ segments expr, Segment.chain branch = .ok segments ∧
      Written (pathExpr Grammar.expr) false pathSigns text expr ∧
        ∀ tree focus, ∃ found, eval tree focus expr = .ok (.nodes found) ∧
          ∀ node, node ∈ found ↔
            Path.Leads tree (Path.ofSegments axis segments) (axis.origin focus.node) node := by
  obtain ⟨path, hpath, rfl⟩ := Attempt.map_eq_ok.1 h
  obtain ⟨steps, hsteps, rfl⟩ := Attempt.map_eq_ok.1 hpath
  obtain ⟨segments, hchain, hne, hnames, hof⟩ := Path.exists_chain hsteps
  have hsegments := hplain segments hchain
  have hreadable := Path.isReadable_of_stepsFrom hsteps hchain fun segment hsegment =>
    Segment.isSpelt_of_isPlain (hsegments segment hsegment)
  have hpseudo : ∀ segment ∈ segments, segment.pseudo = none := fun segment hsegment =>
    (Segment.isPlain_iff.1 (hsegments segment hsegment)).1
  have hplainSteps := Path.isPlain_ofSegments (fun segment hsegment =>
    ⟨hsegments segment hsegment, hnames segment hsegment⟩) axis
  rw [hof hpseudo] at hreadable ⊢
  refine ⟨segments, _, hchain, Path.written hreadable, ?_⟩
  intro tree focus
  obtain ⟨first, later, rfl⟩ := List.exists_cons_of_ne_nil hne
  exact Path.eval_expr hplainSteps rfl tree focus

/-- The texts of branches are read as expressions that together give the elements to which the
segments of some branch lead. -/
theorem branches_leads {whole : Text} {axis : Path.Axis} {list : List Branch} {texts : List Text}
    (h : list.mapM (Compiler.directBranch whole axis) = .ok texts)
    (hplain : ∀ branch ∈ list, ∀ segments, Segment.chain branch.text = .ok segments →
      ∀ segment ∈ segments, segment.isPlain = true) :
    ∃ parts : List (Text × Expr), parts.map (·.1) = texts ∧ parts.length = list.length ∧
      (∀ part ∈ parts, Written (pathExpr Grammar.expr) false pathSigns part.1 part.2) ∧
        ∀ tree focus, ∃ found, unionNodes tree focus (parts.map (·.2)) = .ok found ∧
          ∀ node, node ∈ found ↔ ∃ branch ∈ list, ∃ segments,
            Segment.chain branch.text = .ok segments ∧
              Path.Leads tree (Path.ofSegments axis segments) (axis.origin focus.node) node := by
  induction list generalizing texts with
  | nil =>
    cases h
    refine ⟨[], rfl, rfl, fun part hpart => absurd hpart List.not_mem_nil, fun tree focus => ?_⟩
    refine ⟨[], ?_, by simp⟩
    rw [List.map_nil, unionNodes]
  | cons branch list ih =>
    obtain ⟨text, others, htext, hothers, rfl⟩ := Attempt.mapM_cons_eq_ok.1 h
    obtain ⟨segments, expr, hchain, hwritten, heval⟩ :=
      branch_leads (Attempt.mapError_eq_ok.1 htext) (hplain branch List.mem_cons_self)
    obtain ⟨parts, hparts, hlength, hpartsWritten, hunion⟩ := ih hothers fun other hother =>
      hplain other (List.mem_cons_of_mem branch hother)
    refine ⟨(text, expr) :: parts, by rw [List.map_cons, hparts], ?_, ?_, ?_⟩
    · rw [List.length_cons, List.length_cons, hlength]
    · intro part hpart
      rcases List.mem_cons.1 hpart with rfl | hpart
      · exact hwritten
      · exact hpartsWritten part hpart
    · intro tree focus
      obtain ⟨first, hfirst, hfirstMem⟩ := heval tree focus
      obtain ⟨rest, hrest, hrestMem⟩ := hunion tree focus
      refine ⟨first ++ rest, ?_, fun node => ?_⟩
      · rw [List.map_cons, unionNodes, hfirst, hrest]
        rfl
      · rw [List.mem_append, hfirstMem, hrestMem]
        constructor
        · intro hcase
          rcases hcase with hleads | ⟨other, hother, hleads⟩
          · exact ⟨branch, List.mem_cons_self, segments, hchain, hleads⟩
          · exact ⟨other, List.mem_cons_of_mem branch hother, hleads⟩
        · intro hcase
          rcases hcase with ⟨other, hother, otherSegments, hotherChain, hleads⟩
          rcases List.mem_cons.1 hother with rfl | hother
          · rw [hchain] at hotherChain
            cases hotherChain
            exact .inl hleads
          · exact .inr ⟨other, hother, otherSegments, hotherChain, hleads⟩

/-- From the root, the texts of branches together give the elements that some branch matches. -/
theorem branches_spec {whole : Text} {list : List Branch} {texts : List Text}
    (h : list.mapM (Compiler.directBranch whole .descendant) = .ok texts)
    (hplain : ∀ branch ∈ list, ∀ segments, Segment.chain branch.text = .ok segments →
      ∀ segment ∈ segments, segment.isPlain = true) :
    ∃ parts : List (Text × Expr), parts.map (·.1) = texts ∧ parts.length = list.length ∧
      (∀ part ∈ parts, Written (pathExpr Grammar.expr) false pathSigns part.1 part.2) ∧
        ∀ tree focus, ∃ found, unionNodes tree focus (parts.map (·.2)) = .ok found ∧
          ∀ node, node ∈ found ↔ ∃ branch ∈ list, ∃ segments,
            Segment.chain branch.text = .ok segments ∧ Matches tree segments node := by
  obtain ⟨parts, hparts, hlength, hwritten, hunion⟩ := branches_leads h hplain
  refine ⟨parts, hparts, hlength, hwritten, fun tree focus => ?_⟩
  obtain ⟨found, hfound, hmem⟩ := hunion tree focus
  refine ⟨found, hfound, fun node => ?_⟩
  rw [hmem]
  constructor
  · intro hcase
    rcases hcase with ⟨branch, hbranch, segments, hchain, hleads⟩
    have hne := Segment.chainFrom_ne_nil hchain
    exact ⟨branch, hbranch, segments, hchain, (Path.leads_ofSegments_iff hne).1 hleads⟩
  · intro hcase
    rcases hcase with ⟨branch, hbranch, segments, hchain, hmatches⟩
    have hne := Segment.chainFrom_ne_nil hchain
    exact ⟨branch, hbranch, segments, hchain, (Path.leads_ofSegments_iff hne).2 hmatches⟩

end TreeSelect
