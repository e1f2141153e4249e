import TreeSelect.Proofs.Path.OfSegments
import TreeSelect.Proofs.Text.Digits

/-!
# Selectors in the words of XPath

The compiler and the evaluator have their own ideas of a name.  A tag of a selector is a run of word
characters of any script, hyphens and stars, and an attribute name may hold letters of any script and
colons anywhere; a name of XPath is ASCII and begins with a letter or an underline.  `IsSpelt` says
that a segment asks for names of XPath alone and writes no condition of its own.  The path of such
segments can be written (`isReadable_of_stepsFrom`).
-/

namespace TreeSelect

open TreeSelect.XPath

namespace Segment

/-- Whether the names that a segment asks for are names of XPath, and its pseudo-class stands for a
position that is written in the digits of XPath. -/
structure IsSpelt (segment : Segment) : Prop where
  tag : Lexeme.isNameTest segment.tag = true
  attributes : ∀ entry ∈ (segment.attributes.getD .empty).entries, Lexeme.isName entry.1 = true
  position : ∀ pseudo ∈ segment.pseudo,
    ∀ condition ∈ (Position.ofPseudo pseudo.name pseudo.argument).toOption, condition.isSpelt = true

instance (segment : Segment) : Decidable segment.IsSpelt :=
  decidable_of_iff
    (Lexeme.isNameTest segment.tag = true ∧
      (∀ entry ∈ (segment.attributes.getD .empty).entries, Lexeme.isName entry.1 = true) ∧
      ∀ pseudo ∈ segment.pseudo,
        ∀ condition ∈ (Position.ofPseudo pseudo.name pseudo.argument).toOption,
          condition.isSpelt = true)
    ⟨fun ⟨tag, attributes, position⟩ => ⟨tag, attributes, position⟩,
      fun ⟨tag, attributes, position⟩ => ⟨tag, attributes, position⟩⟩

/-- A plain segment is spelt; it has no pseudo-class. -/
theorem isSpelt_of_isPlain {segment : Segment} (h : segment.isPlain = true) : segment.IsSpelt := by
  obtain ⟨hpseudo, htag, hattributes⟩ := isPlain_iff.1 h
  refine ⟨htag, hattributes, ?_⟩
  intro pseudo hmem
  rw [hpseudo] at hmem
  cases hmem

end Segment

namespace Path

/-- The predicates of a spelt segment can be written. -/
theorem isReadable_of_predicates {selector : Text} {segment : Segment}
    {conditions : List Predicate} (h : predicates selector segment = .ok conditions)
    (hnames : segment.HasClassNames) (hspelt : segment.IsSpelt) :
    ∀ predicate ∈ conditions, predicate.isReadable = true := by
  intro predicate hpredicate
  rcases of_mem_predicates h hpredicate with hplain | ⟨pseudo, hpseudo, condition, hcondition, rfl⟩
  · exact isReadable_plainPredicates hnames hspelt.attributes predicate hplain
  · have hmem : condition ∈ (Position.ofPseudo pseudo.name pseudo.argument).toOption := by
      rw [hcondition]
      rfl
    exact Position.isReadable_of_ofPseudo hcondition
      (hspelt.position pseudo hpseudo condition hmem)

/-- The path of spelt segments can be written, from the root and from the context node. -/
theorem isReadable_of_stepsFrom {selector : Text} {axis : Axis} {offset : Nat} {rest : Text}
    {steps : List Step} {segments : List Segment}
    (h : stepsFrom selector axis offset rest = .ok steps)
    (hchain : Segment.chainFrom selector offset rest = .ok segments)
    (hspelt : ∀ segment ∈ segments, segment.IsSpelt) : Path.isReadable ⟨steps⟩ = true := by
  have hsteps : ∀ step ∈ steps, step.isReadable = true := by
    intro step hstep
    obtain ⟨segment, hsegment, htag, hconditions, _, _, _, hread⟩ :=
      exists_of_mem_stepsFrom h hchain step hstep
    have hsegmentSpelt := hspelt segment hsegment
    have hnames := Segment.hasClassNames_of_read hread
    rw [Step.isReadable, Bool.and_eq_true, List.all_eq_true, htag]
    exact ⟨hsegmentSpelt.tag, isReadable_of_predicates hconditions hnames hsegmentSpelt⟩
  obtain ⟨first, others, rfl, -⟩ := axis_of_stepsFrom h
  have haxes := axis_tail_of_stepsFrom h
  simp only [Path.isReadable, Bool.and_eq_true, List.all_eq_true]
  exact ⟨⟨rfl, fun step hstep => by simpa using haxes step hstep⟩, hsteps⟩

end Path

end TreeSelect
