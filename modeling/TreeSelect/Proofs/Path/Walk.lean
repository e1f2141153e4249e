import TreeSelect.Proofs.Path.OfSegments
import TreeSelect.Proofs.Selector.Spans

/-!
# The walk along a selector

The segments of a selector are read in a loop over a cursor: a round reads the segment at the cursor,
does something with it, and goes on where the segment ends, until only blanks are left.  `walk` is
that loop for a number of rounds; what a round does with its segment is a parameter.

Each round moves the cursor forward, so that the loop ends (`walk_eq`).  Two loops are of this form,
the one that collects the segments (`walk_collect`) and the one that makes steps of them
(`Path.walk_extend`).  `walk_lossless` says of both that nothing of the selector is lost.
-/

namespace TreeSelect.Segment

/-! ## The loop -/

/-- The loop over the segments of a selector, from the segment at `cursor` on.  A round is told
whether its segment is the last one.  There is no outcome when the rounds are used up, or when a
segment ends inside a character. -/
def walk {σ : Type} (selector : Text) (round : σ → Segment → Bool → Except SelectorError σ) :
    Nat → Nat → σ → Option (Except SelectorError σ)
  | 0, _, _ => none
  | rounds + 1, cursor, state =>
    match parseAt selector cursor with
    | .error error => some (.error error)
    | .ok segment =>
      match selector.dropBytes? segment.span.stop with
      | none => none
      | some after =>
        match round state segment (after.all Text.isBlank) with
        | .error error => some (.error error)
        | .ok next =>
          if after.all Text.isBlank then some (.ok next)
          else walk selector round rounds segment.span.stop next

/-- The loop ends before it has made a round for each byte that is left, with what a recursion on
the text gives that makes the same rounds. -/
theorem walk_eq {σ : Type} {selector : Text}
    {round : σ → Segment → Bool → Except SelectorError σ}
    {run : σ → Nat → Text → Except SelectorError σ}
    (hrun : ∀ state offset rest, run state offset rest =
      read selector offset rest >>= fun (segment, after) =>
        round state segment (after.all Text.isBlank) >>= fun next =>
          if after.all Text.isBlank then .ok next else run next segment.span.stop after)
    {front rest : Text} (hselector : selector = front ++ rest) {rounds : Nat}
    (hrounds : rest.bytes < rounds) (state : σ) :
    walk selector round rounds front.bytes state = some (run state front.bytes rest) := by
  induction rounds generalizing front rest state with
  | zero => omega
  | succ rounds ih =>
    have hparse : parseAt selector front.bytes =
        (read selector front.bytes rest).map Prod.fst := by
      rw [parseAt, hselector, Text.dropBytes?_bytes_append]
    rw [walk, hrun, hparse]
    cases hread : read selector front.bytes rest with
    | error error => rfl
    | ok found =>
      obtain ⟨segment, after⟩ := found
      obtain ⟨taken, rfl, hstop⟩ := exists_taken hread
      have hsplit : selector = front ++ taken ++ after := by
        rw [hselector, List.append_assoc]
      have hafter : selector.dropBytes? segment.span.stop = some after := by
        rw [← hstop, hsplit, Text.dropBytes?_bytes_append]
      have hparsed : parseAt selector front.bytes = .ok segment := by
        rw [hparse, hread]
        rfl
      -- the cursor moves forward, so that fewer bytes are left for the rounds that are left
      obtain ⟨hcursor, hspan, -⟩ := bounds_of_parseAt hparsed
      have hshorter : after.bytes < rounds := by
        rw [Text.bytes_append] at hrounds hstop
        omega
      simp only [Except.map, hafter, bind, Except.bind]
      cases round state segment (after.all Text.isBlank) with
      | error error => rfl
      | ok next =>
        by_cases hlast : after.all Text.isBlank = true
        · simp [hlast]
        · simp only [hlast]
          rw [← hstop]
          exact ih hsplit hshorter next

/-! ## The loop that collects the segments -/

/-- The round that collects its segment. -/
def collect (segments : List Segment) (segment : Segment) (_last : Bool) :
    Except SelectorError (List Segment) :=
  .ok (segments ++ [segment])

/-- The loop that collects the segments ends with the chain of the selector. -/
theorem walk_collect (selector : Text) {rounds : Nat} (hrounds : selector.bytes < rounds) :
    walk selector collect rounds 0 [] = some (chain selector) := by
  let run (segments : List Segment) (offset : Nat) (rest : Text) :=
    (chainFrom selector offset rest).map (segments ++ ·)
  have hrun : ∀ segments offset rest, run segments offset rest =
      read selector offset rest >>= fun (segment, after) =>
        collect segments segment (after.all Text.isBlank) >>= fun next =>
          if after.all Text.isBlank then .ok next else run next segment.span.stop after := by
    intro segments offset rest
    simp only [run, collect]
    rw [chainFrom.eq_def]
    cases read selector offset rest with
    | error error => rfl
    | ok found =>
      by_cases hlast : found.2.all Text.isBlank = true
      · simp [hlast, Except.map, bind, Except.bind]
      · simp only [hlast, bind, Except.bind]
        cases chainFrom selector found.1.span.stop found.2 <;> simp [Except.map]
  have hwalk := walk_eq hrun (List.nil_append selector).symm hrounds []
  rw [Text.bytes_nil] at hwalk
  rw [hwalk]
  show some ((chain selector).map ([] ++ ·)) = _
  cases chain selector <;> rfl

end TreeSelect.Segment

namespace TreeSelect.Path

/-! ## The loop that makes steps -/

/-- The round that makes a step of its segment; the state is the axis of the step and the steps
before it. -/
def extend (selector : Text) (state : Axis × List Step) (segment : Segment) (last : Bool) :
    Except SelectorError (Axis × List Step) := do
  let conditions ← predicates selector segment
  if last = true ∧ segment.relation = .child then
    .error (.invalid selector segment.span.stop .childAtEnd)
  else .ok (.ofRelation segment.relation, state.2 ++ [⟨state.1, segment.tag, conditions⟩])

/-- The loop that makes steps ends with the path of the selector. -/
theorem walk_extend (selector : Text) (axis : Axis) {rounds : Nat}
    (hrounds : selector.bytes < rounds) :
    (Segment.walk selector (extend selector) rounds 0 (axis, [])).map (Except.map fun state => ⟨state.2⟩) =
      some (ofSelector selector axis) := by
  -- no step follows the last segment, so that it has no child sign
  let run (state : Axis × List Step) (offset : Nat) (rest : Text) :=
    (stepsFrom selector state.1 offset rest).map fun later =>
      (Axis.descendant, state.2 ++ later)
  have hrun : ∀ state offset rest, run state offset rest =
      Segment.read selector offset rest >>= fun (segment, after) =>
        extend selector state segment (after.all Text.isBlank) >>= fun next =>
          if after.all Text.isBlank then .ok next else run next segment.span.stop after := by
    intro state offset rest
    simp only [run, extend]
    rw [stepsFrom.eq_def]
    cases Segment.read selector offset rest with
    | error error => rfl
    | ok found =>
      obtain ⟨segment, after⟩ := found
      cases hconditions : predicates selector segment with
      | error error => simp [hconditions, Except.map, bind, Except.bind]
      | ok conditions =>
        by_cases hlast : after.all Text.isBlank = true
        · cases hrelation : segment.relation <;>
            simp [hconditions, hlast, hrelation, Except.map, bind, Except.bind, Axis.ofRelation]
        · simp only [hconditions, hlast, bind, Except.bind]
          cases hlater : stepsFrom selector (.ofRelation segment.relation) segment.span.stop after <;>
            simp [hlater, Except.map]
  have hwalk := Segment.walk_eq hrun (List.nil_append selector).symm hrounds (axis, [])
  rw [Text.bytes_nil] at hwalk
  rw [hwalk]
  show some (((stepsFrom selector axis 0 selector).map _).map _) = some ((stepsFrom _ _ _ _).map _)
  cases stepsFrom selector axis 0 selector <;> rfl

end TreeSelect.Path

namespace TreeSelect.Segment

/-! ## Nothing is lost -/

/-- The walk along a selector ends, as each segment is at or behind the cursor and ends beyond it.
When it succeeds, the spans lie apart in their order and cut the texts of the segments out of the
selector, what is outside of them is blank, and each text, read alone, gives its segment again. -/
theorem walk_lossless (selector : Text) :
    (∀ cursor segment, parseAt selector cursor = .ok segment →
        cursor ≤ segment.span.start ∧ segment.span.start < segment.span.stop ∧
          segment.span.stop ≤ selector.bytes) ∧
      (∀ rounds, selector.bytes < rounds →
        walk selector collect rounds 0 [] = some (chain selector) ∧
          ∀ axis, (walk selector (Path.extend selector) rounds 0 (axis, [])).map
            (Except.map fun state => ⟨state.2⟩) = some (Path.ofSelector selector axis)) ∧
        (∀ axis path, Path.ofSelector selector axis = .ok path →
          ∃ segments, chain selector = .ok segments ∧
            List.Forall₂ (Path.IsStepOf selector) segments path.steps) ∧
          ∀ segments, chain selector = .ok segments →
            segments.Pairwise (fun earlier later => earlier.span.stop ≤ later.span.start) ∧
              (∀ segment ∈ segments, segment.StandsIn selector ∧
                parse segment.matched =
                  .ok { segment with span := ⟨0, segment.matched.bytes⟩ }) ∧
                ∀ (before behind : Text) (c : Char), selector = before ++ c :: behind → Text.isBlank c = true ∨
                  ∃ segment ∈ segments, segment.span.start ≤ before.bytes ∧
                    before.bytes + c.utf8Size ≤ segment.span.stop := by
  refine ⟨fun cursor segment => bounds_of_parseAt, fun rounds hrounds =>
    ⟨walk_collect selector hrounds, fun axis => Path.walk_extend selector axis hrounds⟩, ?_, ?_⟩
  · intro axis path h
    obtain ⟨steps, hsteps, rfl⟩ := Attempt.map_eq_ok.1 h
    obtain ⟨segments, hchain, -⟩ := Path.exists_chain hsteps
    exact ⟨segments, hchain, Path.forall₂_of_stepsFrom hsteps hchain⟩
  · intro segments h
    have htiles : Tiles (Text.bytes []) selector segments := tiles_of_chainFrom h
    refine ⟨htiles.pairwise, fun segment hsegment => ⟨htiles.standsIn segment hsegment, ?_⟩, ?_⟩
    · obtain ⟨place, start, after, hread⟩ := exists_read_of_mem h segment hsegment
      exact parse_matched hread
    · intro before behind c hselector
      by_cases hblank : Text.isBlank c = true
      · exact .inl hblank
      · have hcovered := htiles.covers hselector.symm (by simpa using hblank)
        simp only [Text.bytes_nil, Nat.zero_add] at hcovered
        exact .inr hcovered

/-- Blanks stand around the segments, and `é` has two bytes. -/
theorem walk_lossless_blanks :
    let selector := " ul.é > li:nth-child(2n+1)\t".toList
    let first : Segment := ⟨"ul".toList, none, some ["é".toList], none, none, .child,
      "ul.é >".toList, ⟨1, 8⟩⟩
    let second : Segment := ⟨"li".toList, none, none, none,
      some ⟨"nth-child".toList, some "2n+1".toList⟩, .descendant, "li:nth-child(2n+1)".toList,
      ⟨9, 27⟩⟩
    (walk selector collect 29 0 [] = some (.ok [first, second])) ∧
      first.StandsIn selector ∧ second.StandsIn selector ∧
        parse "ul.é >".toList = .ok { first with span := ⟨0, 7⟩ } ∧
          parse "li:nth-child(2n+1)".toList = .ok { second with span := ⟨0, 18⟩ } := by
  intro selector first second
  have hchain : chain selector = .ok [first, second] := by decide +kernel
  obtain ⟨-, hloops, -, hwhole⟩ := walk_lossless selector
  obtain ⟨hloop, -⟩ := hloops 29 (by decide +kernel)
  obtain ⟨-, hsegments, -⟩ := hwhole _ hchain
  obtain ⟨⟨hfirst, hfirstAlone⟩, hsecond, hsecondAlone⟩ :=
    And.intro (hsegments first (by simp)) (hsegments second (by simp))
  exact ⟨hloop.trans (congrArg some hchain), hfirst, hsecond, hfirstAlone, hsecondAlone⟩

end TreeSelect.Segment
