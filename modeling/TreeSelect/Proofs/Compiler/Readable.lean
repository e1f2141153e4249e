import TreeSelect.Proofs.Compiler.Joined

/-!
# Compiled texts are expressions

Where a selector list asks for names of XPath alone, and writes no condition of its own, the text that
it compiles to is an expression, from the root as from the context node (`parse_compile`).
-/

namespace TreeSelect

open TreeSelect.XPath TreeSelect.XPath.Parser TreeSelect.XPath.Grammar

namespace Compiler

/-- The text of a branch of spelt segments is an expression. -/
theorem written_pathText {branch text : Text} {axis : Path.Axis}
    (h : pathText branch axis = .ok text)
    (hspelt : ∀ segments, Segment.chain branch = .ok segments →
      ∀ segment ∈ segments, segment.IsSpelt) :
    ∃ expr, Written (pathExpr Grammar.expr) false pathSigns text expr := by
  obtain ⟨path, hpath, rfl⟩ := Attempt.map_eq_ok.1 h
  obtain ⟨steps, hsteps, rfl⟩ := Attempt.map_eq_ok.1 hpath
  obtain ⟨segments, hchain, -⟩ := Path.exists_chain hsteps
  exact ⟨_, Path.written (Path.isReadable_of_stepsFrom hsteps hchain (hspelt segments hchain))⟩

/-- The texts of branches of spelt segments are expressions. -/
theorem written_branches {whole : Text} {axis : Path.Axis} {list : List Branch}
    {texts : List Text} (h : list.mapM (directBranch whole axis) = .ok texts)
    (hspelt : ∀ branch ∈ list, ∀ segments, Segment.chain branch.text = .ok segments →
      ∀ segment ∈ segments, segment.IsSpelt) :
    ∃ parts : List (Text × Expr), parts.map (·.1) = texts ∧ parts.length = list.length ∧
      ∀ part ∈ parts, Written (pathExpr Grammar.expr) false pathSigns part.1 part.2 := by
  induction list generalizing texts with
  | nil =>
    cases h
    exact ⟨[], rfl, rfl, by simp⟩
  | cons branch list ih =>
    obtain ⟨text, others, htext, hothers, rfl⟩ := Attempt.mapM_cons_eq_ok.1 h
    obtain ⟨expr, hwritten⟩ :=
      written_pathText (Attempt.mapError_eq_ok.1 htext) (hspelt branch List.mem_cons_self)
    obtain ⟨parts, hparts, hlength, hpartsWritten⟩ := ih hothers fun other hother =>
      hspelt other (List.mem_cons_of_mem branch hother)
    refine ⟨(text, expr) :: parts, by rw [List.map_cons, hparts], by simp [hlength], ?_⟩
    intro part hpart
    rcases List.mem_cons.1 hpart with rfl | hpart
    · exact hwritten
    · exact hpartsWritten part hpart

/-- What a selector list compiles to is an expression, from the root and from the context node, if
its segments ask for names of XPath and for positions written in its digits. -/
theorem parse_compile {relative : Bool} {list text : Text}
    (h : (compile .empty relative list .css).1 = .ok text)
    (hspelt : ∀ branch ∈ branches list, ∀ segments, Segment.chain branch.text = .ok segments →
      ∀ segment ∈ segments, segment.IsSpelt) :
    ∃ expr, XPath.parse text = .ok expr := by
  have hspec := (compile_spec Cache.coherent_empty ⟨relative, list, .css⟩).1
  rw [h] at hspec
  obtain ⟨texts, htexts, rfl⟩ := Attempt.map_eq_ok.1 hspec.symm
  obtain ⟨parts, hparts, hlength, hwritten⟩ := written_branches htexts hspelt
  have hparse := parse_joined hlength hwritten
  rw [hparts] at hparse
  exact ⟨_, hparse⟩

/-- Two branches from the context node, with a cycle and with a colon in an attribute name. -/
theorem parse_compile_cycle :
    let list := "ul > li:nth-child(03n + 1), *.a[xml:lang]:last-child".toList
    let text := ".//ul/li[(position()-1) mod 3 = 0 and position() >= 1]|".toList ++
      ".//*[(@xml:lang) and ".toList ++
        "(contains(concat(' ', normalize-space(@class), ' '), ' a ')) and (last())]".toList
    (compile .empty true list .css).1 = .ok text ∧ ∃ expr, XPath.parse text = .ok expr := by
  intro list text
  have hcompiles : (compile .empty true list .css).1 = .ok text := by
    decide +kernel
  have hspelt : ∀ branch ∈ branches list,
      ∀ segment ∈ (Segment.chain branch.text).toOption.getD [], segment.IsSpelt := by
    decide +kernel
  exact ⟨hcompiles, parse_compile hcompiles (forall_segments hspelt)⟩

/-- A letter that is not ASCII, a digit at the beginning and a star are parts of tags, but of no
name; and attribute names have such letters as well. -/
theorem parse_compile_names_beyond :
    let refused (selector text : String) : Prop :=
      (compile .empty false selector.toList .css).1 = .ok text.toList ∧
        ¬ ∃ expr, XPath.parse text.toList = .ok expr
    refused "é" "//é" ∧ refused "1a" "//1a" ∧ refused "a*" "//a*" ∧ refused "[é]" "//*[@é]" := by
  intro refused
  have hnone : ∀ {text : Text}, (XPath.parse text).isOk = false →
      ¬ ∃ expr, XPath.parse text = .ok expr := by
    intro text hfails hreads
    obtain ⟨expr, hexpr⟩ := hreads
    rw [hexpr] at hfails
    cases hfails
  refine ⟨?_, ?_, ?_, ?_⟩
  all_goals exact ⟨by decide +kernel, hnone (by decide +kernel)⟩

end Compiler
end TreeSelect
