import TreeSelect.Proofs.Selector.Chain
import TreeSelect.Proofs.Selector.Written

/-!
# Where one segment ends and the next begins

A segment takes its pieces in one order, tag, id, classes, groups, pseudo-class, and as much as it can
of each.  So what stands directly behind a segment is a piece that has no place behind the last piece
of the segment.

* `admits_eq_false`: no piece is left that could have been taken.
* `boundary_of_chain`: two neighbouring segments are separated by a child sign, by blanks, or by the
  order of pieces.
-/

namespace TreeSelect

/-! ## Kinds of pieces -/

/-- The kinds of pieces, the child sign aside. -/
inductive PieceKind
  | tag
  | id
  | classes
  | groups
  | pseudo
  deriving DecidableEq, Repr

namespace PieceKind

/-- The place of a kind in a segment. -/
def rank : PieceKind → Nat
  | .tag => 0
  | .id => 1
  | .classes => 2
  | .groups => 3
  | .pseudo => 4

/-- Whether pieces of a kind go on with more of the same kind. -/
def repeats : PieceKind → Bool
  | .tag | .classes | .groups => true
  | .id | .pseudo => false

/-- Whether a segment whose last piece is of the kind `last` goes on with one of the kind `next`. -/
def admits (last next : PieceKind) : Bool :=
  last.rank < next.rank || (last == next && last.repeats)

/-- The kinds in the order of a segment. -/
def order : List PieceKind := [.tag, .id, .classes, .groups, .pseudo]

/-- The piece of a kind at the beginning of a text, and the text after it. -/
def take : PieceKind → Text → Text × Text
  | .tag, s => (s.takeWhile isTagChar, s.dropWhile isTagChar)
  | .id, s => Pieces.takeSigned '#' isNameChar s
  | .classes, s => Pieces.takeSigned '.' isClassChar s
  | .groups, s => Pieces.takeGroups s
  | .pseudo, s => (Pieces.pseudoText (Pieces.takePseudo s).1, (Pieces.takePseudo s).2)

/-- The pieces of several kinds, taken one after another. -/
def takeAll : List PieceKind → Text → List Text
  | [], _ => []
  | kind :: kinds, s => (kind.take s).1 :: takeAll kinds (kind.take s).2

/-- The text after pieces of several kinds. -/
def leave (kinds : List PieceKind) (s : Text) : Text := kinds.foldl (fun s kind => (kind.take s).2) s

theorem take_append (kind : PieceKind) (s : Text) : (kind.take s).1 ++ (kind.take s).2 = s := by
  cases kind with
  | tag => exact List.takeWhile_append_dropWhile
  | id => exact Pieces.takeSigned_append '#' isNameChar s
  | classes => exact Pieces.takeSigned_append '.' isClassChar s
  | groups => exact Pieces.takeGroups_append s
  | pseudo => exact Pieces.takePseudo_append s

/-- Kinds are in the order of their places. -/
theorem mem_behind {last next : PieceKind} {before behind : List PieceKind}
    (h : order = before ++ last :: behind) (hrank : last.rank < next.rank) : next ∈ behind := by
  have hsorted : order.Pairwise (·.rank < ·.rank) := by decide
  have hnext : next ∈ order := by cases next <;> decide
  rw [h, List.pairwise_append] at hsorted
  rw [h, List.mem_append, List.mem_cons] at hnext
  rcases hnext with hbefore | rfl | hbehind
  · have hless := hsorted.2.2 next hbefore last List.mem_cons_self
    omega
  · omega
  · exact hbehind

/-- Where no piece is taken, the text stays. -/
theorem take_snd_of_nil {kind : PieceKind} {s : Text} (h : (kind.take s).1 = []) :
    (kind.take s).2 = s := by
  have happend := take_append kind s
  rwa [h] at happend

theorem length_takeAll (kinds : List PieceKind) (s : Text) :
    (takeAll kinds s).length = kinds.length := by
  induction kinds generalizing s with
  | nil => rfl
  | cons kind kinds ih => rw [takeAll, List.length_cons, List.length_cons, ih]

theorem takeAll_append (kinds others : List PieceKind) (s : Text) :
    takeAll (kinds ++ others) s = takeAll kinds s ++ takeAll others (leave kinds s) := by
  induction kinds generalizing s with
  | nil => rfl
  | cons kind kinds ih =>
    rw [List.cons_append, takeAll, takeAll, ih]
    rfl

/-- Kinds of which a text gives no piece leave the text as it is. -/
theorem leave_of_nil {kinds : List PieceKind} {s : Text} (h : ∀ text ∈ takeAll kinds s, text = []) :
    leave kinds s = s ∧ ∀ kind ∈ kinds, (kind.take s).1 = [] := by
  induction kinds with
  | nil =>
    refine ⟨rfl, fun kind hkind => ?_⟩
    cases hkind
  | cons kind kinds ih =>
    have hfirst : (kind.take s).1 = [] := h _ List.mem_cons_self
    have hsame := take_snd_of_nil hfirst
    obtain ⟨hleave, hothers⟩ := ih fun text htext =>
      h text (List.mem_cons_of_mem _ (by rwa [hsame]))
    refine ⟨?_, ?_⟩
    · rw [leave, List.foldl_cons, hsame]
      exact hleave
    · intro other hother
      rcases List.mem_cons.1 hother with rfl | hother
      · exact hfirst
      · exact hothers other hother

/-- A run of pieces has been taken as a whole. -/
theorem take_again {kind : PieceKind} (hrepeats : kind.repeats = true) {s : Text}
    (h : (kind.take s).1 ≠ []) : (kind.take (kind.take s).2).1 = [] := by
  cases kind with
  | tag => exact (Text.takeWhile_of_head Text.head_dropWhile).1
  | classes =>
    have hleft : ∃ rest : Text, (take .classes s).2 = rest.dropWhile isClassChar := by
      cases s with
      | nil => exact absurd rfl h
      | cons c s =>
        simp only [take, Pieces.takeSigned] at h ⊢
        split at h
        case isTrue hcase => exact ⟨s, by rw [if_pos hcase]⟩
        case isFalse => exact absurd rfl h
    obtain ⟨rest, hrest⟩ := hleft
    have hpoint : '.' ∉ (rest.dropWhile isClassChar).head? := by
      intro hmem
      have hchar := Text.head_dropWhile '.' hmem
      simp [isClassChar] at hchar
    rw [hrest, take, Pieces.takeSigned_of_head hpoint]
  | groups =>
    cases hleft : (take .groups s).2 with
    | nil => rw [take, Pieces.takeGroups_of_head (by simp)]
    | cons c rest =>
      by_cases hbracket : c = '['
      · subst hbracket
        have hopen := Pieces.not_mem_of_takeGroups (Prod.ext rfl hleft)
        rw [take, Pieces.takeGroups_unclosed hopen]
      · rw [take, Pieces.takeGroups_of_head (by simpa using hbracket)]
  | id | pseudo => cases hrepeats

end PieceKind

namespace Pieces

/-- The piece of a kind as it is written. -/
def piece (pieces : Pieces) : PieceKind → Text
  | .tag => pieces.tag
  | .id => pieces.id
  | .classes => pieces.classes
  | .groups => pieces.groups
  | .pseudo => pseudoText pieces.pseudo

/-- The kinds of the pieces that are there, in their order. -/
def kinds (pieces : Pieces) : List PieceKind :=
  PieceKind.order.filter fun kind => !(pieces.piece kind).isEmpty

theorem map_piece_scan (s : Text) :
    PieceKind.order.map (scan s).1.piece = PieceKind.takeAll PieceKind.order s := rfl

/-- The piece of a kind is taken from the text that the kinds before it leave. -/
theorem piece_scan {kind : PieceKind} {before behind : List PieceKind}
    (h : PieceKind.order = before ++ kind :: behind) (s : Text) :
    before.map (scan s).1.piece = PieceKind.takeAll before s ∧
      (scan s).1.piece kind = (kind.take (PieceKind.leave before s)).1 ∧
        behind.map (scan s).1.piece =
          PieceKind.takeAll behind (kind.take (PieceKind.leave before s)).2 := by
  have hpieces := map_piece_scan s
  rw [h, List.map_append, List.map_cons, PieceKind.takeAll_append, PieceKind.takeAll] at hpieces
  obtain ⟨hbefore, hrest⟩ :=
    List.append_inj hpieces (by rw [List.length_map, PieceKind.length_takeAll])
  exact ⟨hbefore, (List.cons.inj hrest).1, (List.cons.inj hrest).2⟩

/-- The first piece that is there stands at the beginning of the text. -/
theorem take_of_head_kinds {kind : PieceKind} {s : Text} (h : kind ∈ (scan s).1.kinds.head?) :
    (kind.take s).1 ≠ [] := by
  rw [Option.mem_def, kinds, List.head?_filter, List.find?_eq_some_iff_append] at h
  obtain ⟨hthere, before, behind, horder, hnone⟩ := h
  obtain ⟨hbefore, hpiece, -⟩ := piece_scan horder s
  have hleave : PieceKind.leave before s = s := by
    refine (PieceKind.leave_of_nil fun text htext => ?_).1
    rw [← hbefore] at htext
    obtain ⟨other, hother, rfl⟩ := List.mem_map.1 htext
    simpa using hnone other hother
  rw [← hleave, ← hpiece]
  simpa using hthere

/-- Behind the last piece that is there, no piece is left that a segment would go on with. -/
theorem take_of_getLast_kinds {last next : PieceKind} {s after : Text} {pieces : Pieces}
    (hscan : scan s = (pieces, after)) (hchild : pieces.child = [])
    (hlast : last ∈ pieces.kinds.getLast?) (hadmits : last.admits next = true) :
    (next.take after).1 = [] := by
  have hpieces : pieces = (scan s).1 := (congrArg Prod.fst hscan).symm
  -- without a child sign, the text behind the segment is what the kinds leave
  have hafter : after = PieceKind.leave PieceKind.order s := by
    have hbare : (takeChild (bare s).2).1 ++ (takeChild (bare s).2).2 = (bare s).2 :=
      takeChild_append _
    rw [scan_eq_bare] at hscan
    obtain ⟨rfl, rfl⟩ := Prod.mk.inj hscan
    have hnone : (takeChild (bare s).2).1 = [] := hchild
    rw [hnone, List.nil_append] at hbare
    exact hbare
  obtain ⟨hthere, before, behind, horder, hnone⟩ : pieces.piece last ≠ [] ∧
      ∃ before behind, PieceKind.order = before ++ last :: behind ∧
        ∀ other ∈ behind, pieces.piece other = [] := by
    rw [Option.mem_def, kinds, List.getLast?_eq_head?_reverse, ← List.filter_reverse,
      List.head?_filter, List.find?_eq_some_iff_append] at hlast
    obtain ⟨hthere, behind, before, horder, hnone⟩ := hlast
    refine ⟨by simpa using hthere, before.reverse, behind.reverse, ?_, ?_⟩
    · rw [← List.reverse_reverse PieceKind.order, horder]
      simp
    · intro other hother
      simpa using hnone other (List.mem_reverse.1 hother)
  rw [hpieces] at hthere hnone
  obtain ⟨-, hpiece, hbehind⟩ := piece_scan horder s
  have hquiet : ∀ text ∈ PieceKind.takeAll behind (last.take (PieceKind.leave before s)).2,
      text = [] := by
    intro text htext
    rw [← hbehind] at htext
    obtain ⟨other, hother, rfl⟩ := List.mem_map.1 htext
    exact hnone other hother
  obtain ⟨hleave, htake⟩ := PieceKind.leave_of_nil hquiet
  have hrest : after = (last.take (PieceKind.leave before s)).2 := by
    rw [hafter, horder, PieceKind.leave, List.foldl_append, List.foldl_cons]
    exact hleave
  rw [hrest]
  rw [PieceKind.admits, Bool.or_eq_true, Bool.and_eq_true, decide_eq_true_eq, beq_iff_eq] at hadmits
  rcases hadmits with hrank | ⟨rfl, hrepeats⟩
  · exact htake next (PieceKind.mem_behind horder hrank)
  · exact PieceKind.take_again hrepeats (by rwa [← hpiece])

/-- Pieces that describe something are of some kind. -/
theorem kinds_ne_nil {pieces : Pieces} (h : pieces.describes = true) : pieces.kinds ≠ [] := by
  intro hkinds
  have hnone : ∀ kind, pieces.piece kind = [] := by
    intro kind
    have hmem : kind ∈ PieceKind.order := by cases kind <;> decide
    simpa using List.filter_eq_nil_iff.1 hkinds kind hmem
  have htext : text { pieces with child := [] } = pieces.piece .tag ++ pieces.piece .id ++
      pieces.piece .classes ++ pieces.piece .groups ++ pieces.piece .pseudo ++ [] := rfl
  have hdescribes : describes { pieces with child := [] } = true := h
  apply text_ne_nil hdescribes
  rw [htext]
  simp [hnone]

end Pieces

namespace Segment

/-! ## Neighbours in a chain -/

/-- The kinds of the pieces that a segment was read from. -/
def kinds (segment : Segment) : List PieceKind := (Pieces.scan segment.matched).1.kinds

theorem kinds_made {s after : Text} {pieces : Pieces} (h : Pieces.scan s = (pieces, after))
    (start : Nat) (attributes : Option AttributeConditions) :
    (made start pieces attributes).kinds = pieces.kinds := by
  have hwritten : pieces.IsWritten := by
    have hscan := Pieces.isWritten_scan s
    rwa [h] at hscan
  have hblanks : ∀ c ∈ ([] : Text), Text.isBlank c = true := by simp
  have hagain := Pieces.scan_text hwritten hblanks
  rw [List.append_nil] at hagain
  show (Pieces.scan pieces.text).1.kinds = pieces.kinds
  rw [hagain]

/-- Whether the first piece of the later segment is of a kind with which the earlier one, after its
last piece, would not go on. -/
def OutOfOrder (earlier later : Segment) : Prop :=
  ∃ last ∈ earlier.kinds.getLast?, ∃ next ∈ later.kinds.head?, last.admits next = false

/-- What a segment takes up ends where the segment ends. -/
theorem exists_taken {selector front rest after : Text} {segment : Segment}
    (h : read selector front.bytes rest = .ok (segment, after)) :
    ∃ taken, rest = taken ++ after ∧ (front ++ taken).bytes = segment.span.stop := by
  obtain ⟨blanks, rfl, -, -, hspan⟩ := parts_of_read h
  refine ⟨blanks ++ segment.matched, (List.append_assoc _ _ _).symm, ?_⟩
  simp only [hspan, Text.bytes_append]
  omega

/-- Of two neighbours, the later one is read from what the earlier one leaves. -/
theorem read_neighbours {selector front rest : Text} {before after : List Segment}
    {earlier later : Segment} (hselector : selector = front ++ rest)
    (h : chainFrom selector front.bytes rest = .ok (before ++ earlier :: later :: after)) :
    ∃ offset start between back, read selector offset start = .ok (earlier, between) ∧
      read selector earlier.span.stop between = .ok (later, back) ∧
        ∃ front, selector = front ++ between ∧ front.bytes = earlier.span.stop := by
  induction before generalizing front rest with
  | nil =>
    obtain ⟨segment, between, hread, ⟨-, hone⟩ | ⟨-, others, hothers, hmore⟩⟩ :=
      chainFrom_eq_ok h
    · cases hone
    · cases hmore
      obtain ⟨taken, rfl, hstop⟩ := exists_taken hread
      obtain ⟨segment, back, hnext, hlater⟩ := chainFrom_eq_ok hothers
      obtain rfl : later = segment := by
        rcases hlater with ⟨-, hone⟩ | ⟨-, others, -, hmore⟩
        · cases hone
          rfl
        · cases hmore
          rfl
      exact ⟨_, _, between, back, hread, hnext, front ++ taken, by simp [hselector], hstop⟩
  | cons segment before ih =>
    obtain ⟨first, between, hread, ⟨-, hone⟩ | ⟨-, others, hothers, hmore⟩⟩ :=
      chainFrom_eq_ok h
    · cases before <;> cases hone
    · cases hmore
      obtain ⟨taken, rfl, hstop⟩ := exists_taken hread
      rw [← hstop] at hothers
      exact ih (by simp [hselector]) hothers

/-- Two neighbouring segments of a selector are separated by a child sign, by blanks, or by the order
of pieces. -/
theorem boundary_of_chain {selector : Text} {before after : List Segment} {earlier later : Segment}
    (h : chain selector = .ok (before ++ earlier :: later :: after)) :
    ∃ front gap back, selector = front ++ gap ++ back ∧ front.bytes = earlier.span.stop ∧
      (front ++ gap).bytes = later.span.start ∧ (∀ c ∈ gap, Text.isBlank c = true) ∧
        (earlier.relation = .child ∧ earlier.matched.getLast? = some '>' ∨
          earlier.relation = .descendant ∧ (gap ≠ [] ∨ earlier.OutOfOrder later)) := by
  obtain ⟨offset, start, between, back, hearlier, hlater, front, rfl, hfront⟩ :=
    read_neighbours (List.nil_append selector).symm h
  obtain ⟨pieces, attributes, hscan, hdescribes, -, rfl⟩ := read_eq_ok_iff.1 hearlier
  obtain ⟨others, conditions, hothers, hdescribesOthers, -, rfl⟩ := read_eq_ok_iff.1 hlater
  refine ⟨front, between.takeWhile Text.isBlank, between.dropWhile Text.isBlank, ?_, hfront, ?_,
    List.all_eq_true.1 List.all_takeWhile, ?_⟩
  · rw [List.append_assoc, List.takeWhile_append_dropWhile]
  · rw [Text.bytes_append, hfront]
    rfl
  by_cases hchild : pieces.child = []
  · refine .inr ⟨by simp [made, hchild], ?_⟩
    by_cases hgap : between.takeWhile Text.isBlank = []
    · -- nothing is skipped, so that the later segment begins with what the earlier one left
      have hnext : between.dropWhile Text.isBlank = between := by
        have hsplit : between.takeWhile Text.isBlank ++ between.dropWhile Text.isBlank = between :=
          List.takeWhile_append_dropWhile
        rwa [hgap] at hsplit
      rw [hnext] at hothers
      obtain ⟨last, hlast⟩ : ∃ last, last ∈ pieces.kinds.getLast? :=
        ⟨_, List.getLast?_eq_some_getLast (Pieces.kinds_ne_nil hdescribes)⟩
      obtain ⟨next, hhead⟩ : ∃ next, next ∈ others.kinds.head? :=
        ⟨_, List.head?_eq_some_head (Pieces.kinds_ne_nil hdescribesOthers)⟩
      refine .inr ⟨last, ?_, next, ?_, ?_⟩
      · rw [kinds_made hscan]
        exact hlast
      · rw [kinds_made hothers]
        exact hhead
      · by_cases hadmits : last.admits next = true
        · have hnone := Pieces.take_of_getLast_kinds hscan hchild hlast hadmits
          have hthere : (next.take between).1 ≠ [] :=
            Pieces.take_of_head_kinds (by rw [hothers]; exact hhead)
          exact absurd hnone hthere
        · simpa using hadmits
    · exact .inl hgap
  · have hwritten : pieces.IsWritten := by
      have hpieces := Pieces.isWritten_scan (start.dropWhile Text.isBlank)
      rwa [hscan] at hpieces
    obtain ⟨blanks, -, hsign⟩ := hwritten.child.resolve_left hchild
    refine .inl ⟨by simp [made, hchild], ?_⟩
    show pieces.text.getLast? = some '>'
    rw [Pieces.text, hsign, ← List.append_assoc, List.getLast?_concat]

/-- An id behind a class has no place in the segment of the class. -/
theorem chain_class_id :
    chain ".a#b".toList = .ok [
      ⟨['*'], none, some [['a']], none, none, .descendant, ".a".toList, ⟨0, 2⟩⟩,
      ⟨['*'], some ['b'], none, none, none, .descendant, "#b".toList, ⟨2, 4⟩⟩] := by
  decide +kernel

theorem boundary_of_class_id :
    ∃ earlier later, chain ".a#b".toList = .ok [earlier, later] ∧
      ∃ front gap back : Text, ".a#b".toList = front ++ gap ++ back ∧ front.bytes = earlier.span.stop ∧
        (front ++ gap).bytes = later.span.start ∧ (∀ c ∈ gap, Text.isBlank c = true) ∧
          (earlier.relation = .child ∧ earlier.matched.getLast? = some '>' ∨
            earlier.relation = .descendant ∧ (gap ≠ [] ∨ earlier.OutOfOrder later)) :=
  ⟨_, _, chain_class_id, @boundary_of_chain ".a#b".toList [] [] _ _ chain_class_id⟩

/-- Without a child sign, there need not be a blank between two segments. -/
theorem not_blank_or_child :
    ¬ ∀ (selector : Text) (before after : List Segment) (earlier later : Segment),
      chain selector = .ok (before ++ earlier :: later :: after) →
        earlier.relation = .child ∨ ∃ front gap back, selector = front ++ gap ++ back ∧
          front.bytes = earlier.span.stop ∧ (front ++ gap).bytes = later.span.start ∧
            ∃ c ∈ gap, Text.isBlank c = true := by
  intro hclaim
  rcases hclaim ".a#b".toList [] [] _ _ chain_class_id with
    hchild | ⟨front, gap, -, -, hstop, hstart, hgap⟩
  · cases hchild
  · obtain ⟨c, hc, -⟩ := hgap
    have hbytes : 0 < Text.bytes gap := Text.bytes_pos (List.ne_nil_of_mem hc)
    rw [Text.bytes_append] at hstart
    dsimp only at hstop hstart
    omega

end Segment
end TreeSelect
