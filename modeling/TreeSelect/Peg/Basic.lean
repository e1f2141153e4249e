import TreeSelect.Text.Basic

/-!
# Parsing expression grammars

A grammar gives each of its rules a pattern.  A choice takes its first alternative that matches and
never comes back to another, a repetition takes as many as it can, and an absent pattern looks ahead.

Between the parts of a sequence and of a repetition stand gaps, which are what one rule of the grammar
matches, as often as it does.  A rule is one of four kinds (`Modifier`): it may forbid the gaps, and it
may hide its own pair or the pairs of the rules that it uses.  The pairs are what a match tells: each
has the name of a rule, the text that the rule took and the pairs of the rules inside.

`Matches` says what a pattern does at the beginning of a text: it takes some of it and gives pairs, or
it fails.  It does only one of these (`Matches.unique`).
-/

namespace TreeSelect.Peg

/-! ## Grammars -/

/-- What a rule does about gaps and pairs. -/
inductive Modifier
  /-- Gaps as in the rule that uses it. -/
  | normal
  /-- No pair of its own. -/
  | silent
  /-- No gaps, and no pairs inside its own. -/
  | atomic
  /-- No gaps. -/
  | compound
  deriving DecidableEq, Repr

/-- Whether there are gaps, and whether rules give pairs. -/
inductive Mode
  | spaced
  | compound
  | atomic
  deriving DecidableEq, Repr

/-- What a rule looks for. -/
inductive Pattern (R : Type)
  | text (expected : Text)
  | char (accepts : Char → Bool)
  | rule (name : R)
  /-- What may stand between two parts. -/
  | gap
  /-- The beginning of the input. -/
  | start
  /-- The end of the input. -/
  | finish
  | seq (first second : Pattern R)
  | choice (first second : Pattern R)
  | optional (part : Pattern R)
  /-- One after another without gaps. -/
  | repeated (part : Pattern R)
  | absent (part : Pattern R)

/-- A rule that has matched. -/
inductive Pair (R : Type)
  | node (rule : R) (text : Text) (inner : List (Pair R))

/-- A grammar with rules `R`. -/
structure Grammar (R : Type) where
  modifier : R → Modifier
  body : R → Pattern R
  /-- The rule whose matches are gaps. -/
  gap : R

variable {R : Type}

namespace Pair

/-- The rule of a pair. -/
def rule : Pair R → R
  | node rule _ _ => rule

/-- The text that the rule took. -/
def text : Pair R → Text
  | node _ text _ => text

/-- The pairs of the rules inside. -/
def inner : Pair R → List (Pair R)
  | node _ _ inner => inner

end Pair

namespace Pattern

/-- Patterns one after another with gaps between them. -/
def sequence (first : Pattern R) : List (Pattern R) → Pattern R
  | [] => first
  | second :: others => .seq first (.seq .gap (sequence second others))

/-- The first of several patterns that matches. -/
def firstOf (first : Pattern R) : List (Pattern R) → Pattern R
  | [] => first
  | second :: others => .choice first (firstOf second others)

/-- As many as there are, with gaps between them. -/
def many (part : Pattern R) : Pattern R := .optional (.seq part (.repeated (.seq .gap part)))

/-- As many as there are, but one at least. -/
def atLeastOne (part : Pattern R) : Pattern R := sequence part [many part]

end Pattern

/-! ## Matching -/

/-- The mode inside a rule. -/
def Modifier.inside : Modifier → Mode → Mode
  | .normal, mode | .silent, mode => mode
  | .atomic, _ => .atomic
  | .compound, _ => .compound

/-- The pairs that a rule gives, of which those inside are known. -/
def Modifier.pairs (modifier : Modifier) (mode : Mode) (rule : R) (text : Text)
    (inner : List (Pair R)) : List (Pair R) :=
  match modifier with
  | .silent => inner
  | .compound => [.node rule text inner]
  | .normal | .atomic => if mode = .atomic then inner else [.node rule text inner]

variable (grammar : Grammar R) (input : Text)

/-- What a pattern does at the beginning of a text that is the end of `input`: it gives pairs and
leaves a text, or it fails. -/
inductive Matches : Mode → Pattern R → Text → Option (List (Pair R) × Text) → Prop
  | text {mode expected s rest} (h : s = expected ++ rest) :
      Matches mode (.text expected) s (some ([], rest))
  | text_fails {mode expected s} (h : ¬ expected <+: s) : Matches mode (.text expected) s none
  | char {mode accepts c rest} (h : accepts c = true) :
      Matches mode (.char accepts) (c :: rest) (some ([], rest))
  | char_fails {mode accepts s} (h : ∀ c ∈ s.head?, accepts c = false) :
      Matches mode (.char accepts) s none
  | rule {mode name s text rest inner} (hs : s = text ++ rest)
      (h : Matches ((grammar.modifier name).inside mode) (grammar.body name) s
        (some (inner, rest))) :
      Matches mode (.rule name) s
        (some ((grammar.modifier name).pairs mode name text inner, rest))
  | rule_fails {mode name s}
      (h : Matches ((grammar.modifier name).inside mode) (grammar.body name) s none) :
      Matches mode (.rule name) s none
  | gap {s result} (h : Matches .spaced (.repeated (.rule grammar.gap)) s result) :
      Matches .spaced .gap s result
  | no_gap {mode s} (h : mode ≠ .spaced) : Matches mode .gap s (some ([], s))
  | start {mode s} (h : s = input) : Matches mode .start s (some ([], s))
  | start_fails {mode s} (h : s ≠ input) : Matches mode .start s none
  | finish {mode s} (h : s = []) : Matches mode .finish s (some ([], s))
  | finish_fails {mode s} (h : s ≠ []) : Matches mode .finish s none
  | seq {mode first second s middle rest pairs others}
      (hfirst : Matches mode first s (some (pairs, middle)))
      (hsecond : Matches mode second middle (some (others, rest))) :
      Matches mode (.seq first second) s (some (pairs ++ others, rest))
  | seq_fails_first {mode first second s} (h : Matches mode first s none) :
      Matches mode (.seq first second) s none
  | seq_fails_second {mode first second s middle pairs}
      (hfirst : Matches mode first s (some (pairs, middle)))
      (hsecond : Matches mode second middle none) : Matches mode (.seq first second) s none
  | choice_first {mode first second s taken} (h : Matches mode first s (some taken)) :
      Matches mode (.choice first second) s (some taken)
  | choice_second {mode first second s result} (hfirst : Matches mode first s none)
      (hsecond : Matches mode second s result) : Matches mode (.choice first second) s result
  | optional_there {mode part s taken} (h : Matches mode part s (some taken)) :
      Matches mode (.optional part) s (some taken)
  | optional_missing {mode part s} (h : Matches mode part s none) :
      Matches mode (.optional part) s (some ([], s))
  | repeated_stop {mode part s} (h : Matches mode part s none) :
      Matches mode (.repeated part) s (some ([], s))
  | repeated_next {mode part s middle rest pairs others}
      (h : Matches mode part s (some (pairs, middle)))
      (hothers : Matches mode (.repeated part) middle (some (others, rest))) :
      Matches mode (.repeated part) s (some (pairs ++ others, rest))
  | absent {mode part s} (h : Matches mode part s none) :
      Matches mode (.absent part) s (some ([], s))
  | absent_fails {mode part s taken} (h : Matches mode part s (some taken)) :
      Matches mode (.absent part) s none

variable {grammar input}

/-- A pattern does only one thing at the beginning of a text. -/
theorem Matches.unique {mode : Mode} {pattern : Pattern R} {s : Text}
    {result other : Option (List (Pair R) × Text)} (h : Matches grammar input mode pattern s result)
    (hother : Matches grammar input mode pattern s other) : result = other := by
  induction h generalizing other with
  | text hs =>
    subst hs
    cases hother with
    | text hs => rw [List.append_cancel_left hs]
    | text_fails hfails => exact absurd (List.prefix_append _ _) hfails
  | text_fails hfails =>
    cases hother with
    | text hs =>
      subst hs
      exact absurd (List.prefix_append _ _) hfails
    | text_fails => rfl
  | char hc =>
    cases hother with
    | char => rfl
    | char_fails hfails =>
      rw [hfails _ rfl] at hc
      cases hc
  | char_fails hfails =>
    cases hother with
    | char hc =>
      rw [hfails _ rfl] at hc
      cases hc
    | char_fails => rfl
  | rule hs _ ih =>
    cases hother with
    | rule hs' h' =>
      cases ih h'
      rw [List.append_cancel_right (hs.symm.trans hs')]
    | rule_fails h' => cases ih h'
  | rule_fails _ ih =>
    cases hother with
    | rule hs' h' => cases ih h'
    | rule_fails => rfl
  | gap _ ih =>
    cases hother with
    | gap h' => exact ih h'
    | no_gap hmode => exact absurd rfl hmode
  | no_gap hmode =>
    cases hother with
    | gap => exact absurd rfl hmode
    | no_gap => rfl
  | start hs =>
    cases hother with
    | start => rfl
    | start_fails hne => exact absurd hs hne
  | start_fails hne =>
    cases hother with
    | start hs => exact absurd hs hne
    | start_fails => rfl
  | finish hs =>
    cases hother with
    | finish => rfl
    | finish_fails hne => exact absurd hs hne
  | finish_fails hne =>
    cases hother with
    | finish hs => exact absurd hs hne
    | finish_fails => rfl
  | seq _ _ ihfirst ihsecond =>
    cases hother with
    | seq hfirst' hsecond' =>
      cases ihfirst hfirst'
      cases ihsecond hsecond'
      rfl
    | seq_fails_first hfirst' => cases ihfirst hfirst'
    | seq_fails_second hfirst' hsecond' =>
      cases ihfirst hfirst'
      cases ihsecond hsecond'
  | seq_fails_first _ ih =>
    cases hother with
    | seq hfirst' _ => cases ih hfirst'
    | seq_fails_first => rfl
    | seq_fails_second => rfl
  | seq_fails_second _ _ ihfirst ihsecond =>
    cases hother with
    | seq hfirst' hsecond' =>
      cases ihfirst hfirst'
      cases ihsecond hsecond'
    | seq_fails_first => rfl
    | seq_fails_second => rfl
  | choice_first _ ih =>
    cases hother with
    | choice_first h' => exact ih h'
    | choice_second hfirst' => cases ih hfirst'
  | choice_second _ _ ihfirst ihsecond =>
    cases hother with
    | choice_first h' => cases ihfirst h'
    | choice_second _ hsecond' => exact ihsecond hsecond'
  | optional_there _ ih =>
    cases hother with
    | optional_there h' => exact ih h'
    | optional_missing h' => cases ih h'
  | optional_missing _ ih =>
    cases hother with
    | optional_there h' => cases ih h'
    | optional_missing => rfl
  | repeated_stop _ ih =>
    cases hother with
    | repeated_stop => rfl
    | repeated_next h' _ => cases ih h'
  | repeated_next _ _ ih ihothers =>
    cases hother with
    | repeated_stop h' => cases ih h'
    | repeated_next h' hothers' =>
      cases ih h'
      cases ihothers hothers'
      rfl
  | absent _ ih =>
    cases hother with
    | absent => rfl
    | absent_fails h' => cases ih h'
  | absent_fails _ ih =>
    cases hother with
    | absent h' => cases ih h'
    | absent_fails => rfl

end TreeSelect.Peg
