import TreeSelect.Proofs.XPath.Names
import TreeSelect.Proofs.XPath.Operators

/-!
# Written steps and location paths

A step is written as an axis sign, a name or the star, and at most one predicate in brackets.
Separators and steps behind a first step make a relative path, and with a separator before it a path
from the root.

A text is read as a location path only where it is not the beginning of a primary expression, which
the grammar tries first (`NoPrimary`).
-/

namespace TreeSelect.XPath

open TreeSelect.XPath.Parser TreeSelect.XPath.Grammar TreeSelect.XPath.Lexeme

/-! ## Predicates -/

/-- What goes on with a step: predicates. -/
def stepSigns : List Char := ['[']

/-- The text of at most one predicate, with its brackets. -/
inductive Bracketed : Text → List Expr → Prop
  | none : Bracketed [] []
  | one {closed : Bool} {s : Text} {e : Expr} (h : Written expr closed disjunctionSigns s e) :
      Bracketed ('[' :: s ++ [']']) [e]

theorem Bracketed.ends {s rest : Text} {predicates : List Expr} (h : Bracketed s predicates)
    (hrest : Ends rest) : Ends (s ++ rest) := by
  cases h with
  | none => exact hrest
  | one => exact ends_cons (by decide) (by decide) (by decide) _

/-- An expression in square brackets is a predicate, whatever stands behind it. -/
theorem reads_predicate {inner : Parser Expr} {s rest : Text} {e : Expr} (hstarts : Starts s)
    (h : inner.ReadsUpTo (s ++ (']' :: rest)) e (']' :: rest)) :
    (predicate inner).Reads ('[' :: (s ++ (']' :: rest))) e rest := by
  have hclose : (do let _ ← exactly "]".toList; return e : Parser Expr).Reads
      (skipGap (']' :: rest)) e rest := by
    rw [skipGap_cons_of_not_isGap (by decide)]
    exact (reads_exactly "]".toList rest).bind (reads_pure e rest)
  rw [← (hstarts.append (']' :: rest)).skipGap] at h
  exact ((reads_exactly "[".toList _).bind ((reads_blanks _).bind (h.bind_blanks hclose))).rule

theorem Bracketed.readsUpTo {s rest : Text} {predicates : List Expr} (h : Bracketed s predicates)
    (hrest : Avoids stepSigns (skipGap rest)) :
    (many (predicate expr)).ReadsUpTo (skipGap (s ++ rest)) predicates rest := by
  have hstop : (predicate expr).Refuses (skipGap rest) :=
    ((refuses_exactly_of_avoids hrest (by decide)).bind _).rule
  cases h with
  | none =>
    refine ⟨skipGap rest, .inr rfl, reads_many (.stop ?_) (skipGap_skipGap rest)⟩
    rw [skipGap_skipGap]
    exact hstop
  | @one closed s e h =>
    have hfollows : Follows closed disjunctionSigns (']' :: rest) := by
      refine ⟨fun _ => ends_cons (by decide) (by decide) (by decide) rest, ?_⟩
      rw [skipGap_cons_of_not_isGap (by decide)]
      exact avoids_cons (by decide) rest
    have hpredicate := reads_predicate h.starts (h.reads _ hfollows)
    have hskip : skipGap ('[' :: (s ++ (']' :: rest))) = '[' :: (s ++ (']' :: rest)) :=
      skipGap_cons_of_not_isGap (by decide)
    have htext : '[' :: s ++ [']'] ++ rest = '[' :: (s ++ (']' :: rest)) := by simp
    rw [htext, hskip]
    refine ⟨rest, .inl rfl, reads_many (.next ?_ ?_ (.stop hstop)) hskip⟩
    · rw [hskip]
      exact hpredicate
    · simp only [List.length_append, List.length_cons]
      omega

/-! ## Steps -/

theorem starts_of_isNameTest {name : Text} (h : isNameTest name = true) : Starts name := by
  rcases isNameTest_spec h with rfl | hname
  · exact ⟨'*', [], rfl, by decide, by decide⟩
  · obtain ⟨c, rest, rfl, hc⟩ := exists_isNameStart hname
    refine ⟨c, rest, rfl, ?_, ?_⟩
    · intro hcase
      subst hcase
      revert hc
      decide
    · by_cases hgap : isGap c = true
      · simp only [isGap, Bool.or_eq_true, beq_iff_eq] at hgap
        rcases hgap with ((rfl | rfl) | rfl) | rfl <;> exact absurd hc (by decide)
      · simpa using hgap

/-- A name test begins with none of the signs that the grammar tries before it. -/
theorem avoids_of_isNameTest {name : Text} (h : isNameTest name = true) (rest : Text) :
    Avoids ['@', '.', '/'] (name ++ rest) := by
  rcases isNameTest_spec h with rfl | hname
  · exact avoids_cons (by decide) rest
  · obtain ⟨c, t, rfl, hc⟩ := exists_isNameStart hname
    refine avoids_cons ?_ (t ++ rest)
    intro hmem
    simp only [List.mem_cons, List.not_mem_nil, or_false] at hmem
    rcases hmem with rfl | rfl | rfl <;> exact absurd hc (by decide)

/-- A step is read from its node test on, wherever its axis comes from. -/
theorem readsUpTo_axisStep {axis : Option Axis} {s name brackets rest : Text}
    {predicates : List Expr} (hname : isNameTest name = true)
    (haxis : (optional axisSpecifier).Reads s axis (name ++ (brackets ++ rest)))
    (hbrackets : Bracketed brackets predicates) (hrest : Follows false stepSigns rest) :
    (axisStep expr).ReadsUpTo s (.mk (axis.getD .child) (.ofName name) predicates) rest := by
  have htest := reads_nodeTest hname (hbrackets.ends (hrest.ends rfl))
  have hpredicates := (hbrackets.readsUpTo hrest.avoids).bind_pure fun predicates =>
    Step.mk (axis.getD .child) (.ofName name) predicates
  have hblanks := reads_blanks (name ++ (brackets ++ rest))
  rw [((starts_of_isNameTest hname).append _).skipGap] at hblanks
  exact (haxis.bind_upTo (hblanks.bind_upTo
    (htest.upTo.bind_blanks_upTo hpredicates))).rule

/-- A text that begins with no point begins with no abbreviated step. -/
theorem refuses_abbreviated {s sign : Text} (hpoint : Avoids ['.'] s) (hsign : ¬ Avoids ['.'] sign)
    (value : Step) : (Parser.rule (exactly sign >>= fun _ => pure value)).Refuses s :=
  ((refuses_exactly_of_avoids hpoint hsign).bind _).rule

/-- A step that begins with no point is one with an axis and a node test. -/
theorem readsUpTo_step {s rest : Text} {value : Step} (hpoint : Avoids ['.'] s)
    (h : (axisStep expr).ReadsUpTo s value rest) : (step expr).ReadsUpTo s value rest :=
  ((refuses_abbreviated hpoint (by decide) _).orElse_readsUpTo
    ((refuses_abbreviated hpoint (by decide) _).orElse_readsUpTo (h.orElse _))).rule

/-- A name with at most one predicate is a step to children. -/
theorem written_childStep {name brackets : Text} {predicates : List Expr}
    (hname : isNameTest name = true) (hbrackets : Bracketed brackets predicates) :
    Written (step expr) false stepSigns (name ++ brackets)
      (.mk .child (.ofName name) predicates) where
  starts := (starts_of_isNameTest hname).append brackets
  reads := by
    intro rest hrest
    have havoids := avoids_of_isNameTest hname (brackets ++ rest)
    have hbehind := behindName_of_isNameTest hname (hbrackets.ends (hrest.ends rfl))
    have hnone : axisSpecifier.Refuses (name ++ (brackets ++ rest)) :=
      refuses_axisSpecifier (havoids.mono (by simp)) hbehind.2
    rw [List.append_assoc]
    exact readsUpTo_step (havoids.mono (by simp))
      (readsUpTo_axisStep hname hnone.optional hbrackets hrest)

/-- A name behind the sign for it is a step to attributes. -/
theorem written_attributeStep {name : Text} (hname : isNameTest name = true) :
    Written (step expr) false stepSigns ('@' :: name) (.mk .attribute (.ofName name) []) where
  starts := ⟨'@', name, rfl, by decide, by decide⟩
  reads := by
    intro rest hrest
    have hsign : (do let _ ← exactly "@".toList; return .attribute : Parser Axis).Reads
        ('@' :: name ++ rest) .attribute (name ++ ([] ++ rest)) :=
      (reads_exactly "@".toList (name ++ rest)).bind (reads_pure Axis.attribute _)
    have haxis : axisSpecifier.Reads ('@' :: name ++ rest) .attribute (name ++ ([] ++ rest)) :=
      (hsign.rule.orElse _).rule
    exact readsUpTo_step (avoids_cons (by decide) _)
      (readsUpTo_axisStep hname haxis.optional .none hrest)

/-- A point before no other point is a step to the node itself. -/
theorem reads_selfStep {inner : Parser Expr} {s : Text} (h : Avoids ['.'] s) :
    (step inner).Reads ('.' :: s) (.mk .self .node []) s := by
  have hparent : (exactly "..".toList).Refuses ('.' :: s) := by
    apply refuses_exactly
    intro hcase
    rcases hcase with ⟨after, hafter⟩
    cases hafter
    exact h '.' rfl List.mem_cons_self
  have hself : (do let _ ← exactly ".".toList; return .mk .self .node [] : Parser Step).Reads
      ('.' :: s) (.mk .self .node []) s :=
    (reads_exactly ".".toList s).bind (reads_pure _ s)
  exact ((hparent.bind _).rule.oneOf_cons_reads (reads_oneOf_cons hself.rule _)).rule

/-- A point alone is a step to the node itself. -/
theorem written_selfStep : Written (step expr) false stepSigns ['.'] (.mk .self .node []) where
  starts := ⟨'.', [], rfl, by decide, by decide⟩
  reads := by
    intro rest hrest
    have hpoint : Avoids ['.'] rest := by
      intro c hc hmem
      rw [List.mem_singleton] at hmem
      subst hmem
      exact absurd ((hrest.ends rfl).lexeme '.' hc) (by decide)
    exact (reads_selfStep hpoint).upTo

/-! ## Relative paths -/

/-- A separator as it stands before a step, and the steps that it stands for. -/
inductive Separator : Text → List Step → Prop
  | descendants : Separator ['/', '/'] [.descendantOrSelf]
  | children : Separator ['/'] []

/-- One slash before a text without any is no pair of slashes. -/
theorem slash_not_begins {s : Text} (h : Avoids ['/'] s) : ¬ "//".toList <+: '/' :: s := by
  intro hcase
  rcases hcase with ⟨after, hafter⟩
  cases hafter
  exact h '/' rfl List.mem_cons_self

theorem Separator.reads {sign s : Text} {skipped : List Step} (h : Separator sign skipped)
    (hs : Avoids ['/'] s) : pathSeparator.Reads (sign ++ s) skipped s := by
  cases h with
  | descendants =>
    have hsign : scanText "//".toList (['/', '/'] ++ s) = some ("//".toList, s) :=
      scanText_eq_some_iff.2 ⟨rfl, rfl⟩
    have hscan : scanFirst ["//".toList, "/".toList] (['/', '/'] ++ s) = some ("//".toList, s) := by
      rw [scanFirst, List.findSome?_cons, hsign]
    exact (reads_lexeme hscan).rule.bind (reads_pure _ s)
  | children =>
    have hlong : scanText "//".toList (['/'] ++ s) = none := scanText_eq_none (slash_not_begins hs)
    have hsign : scanText "/".toList (['/'] ++ s) = some ("/".toList, s) :=
      scanText_eq_some_iff.2 ⟨rfl, rfl⟩
    have hscan : scanFirst ["//".toList, "/".toList] (['/'] ++ s) = some ("/".toList, s) := by
      rw [scanFirst, List.findSome?_cons, hlong]
      simp only [List.findSome?_cons, hsign]
    exact (reads_lexeme hscan).rule.bind (reads_pure _ s)

theorem refuses_pathSeparator {s : Text} (h : Avoids ['/'] s) : pathSeparator.Refuses s := by
  have hscan : scanFirst ["//".toList, "/".toList] s = none := by
    refine List.findSome?_eq_none_iff.2 ?_
    intro sign hsign
    have hslash : ∀ sign ∈ ["//".toList, "/".toList], ¬ Avoids ['/'] sign := by decide
    exact scanText_eq_none (h.not_begins (hslash sign hsign))
  exact (refuses_lexeme hscan).rule.bind _

/-- A separator begins with a slash. -/
theorem Separator.cons {sign : Text} {skipped : List Step} (h : Separator sign skipped) :
    ∃ rest, sign = '/' :: rest := by
  cases h with
  | descendants => exact ⟨_, rfl⟩
  | children => exact ⟨_, rfl⟩

/-- The text is a further part of a relative path: a separator and a step. -/
def FurtherStep (s : Text) (steps : List Step) : Prop :=
  Continues (do
      let skipped ← pathSeparator
      blanks
      let next ← step expr
      return skipped ++ [next])
    stepSigns s steps

theorem Separator.furtherStep {sign s : Text} {skipped : List Step} {value : Step}
    (hsign : Separator sign skipped) (h : Written (step expr) false stepSigns s value)
    (hs : ∀ rest, Avoids ['/'] (s ++ rest)) :
    FurtherStep (sign ++ s) (skipped ++ [value]) := by
  have hskip : ∀ rest, skipGap (sign ++ s ++ rest) = sign ++ (s ++ rest) := by
    intro rest
    obtain ⟨after, hcons⟩ := hsign.cons
    rw [List.append_assoc, hcons, List.cons_append]
    exact skipGap_cons_of_not_isGap (by decide)
  constructor
  case follows =>
    intro rest
    obtain ⟨after, hcons⟩ := hsign.cons
    constructor
    · intro _
      rw [hcons, List.cons_append, List.cons_append]
      exact ends_cons (by decide) (by decide) (by decide) _
    · rw [hskip, hcons, List.cons_append]
      exact avoids_cons (by decide) _
  case shorter =>
    intro rest
    obtain ⟨after, hcons⟩ := hsign.cons
    rw [hskip, hcons]
    simp only [List.length_append, List.length_cons]
    omega
  case reads =>
    intro rest hrest
    have hstep := (h.reads rest hrest).bind_pure fun next => skipped ++ [next]
    rw [← (h.starts.append rest).skipGap] at hstep
    rw [hskip]
    exact (hsign.reads (hs rest)).upTo.bind_blanks_upTo hstep

/-- A first step, and further steps behind their separators. -/
theorem written_relativePath {s : Text} {first : Step}
    (h : Written (step expr) false stepSigns s first)
    {parts : List (Text × List Step)}
    (hparts : ∀ p ∈ parts, FurtherStep p.1 p.2) :
    Written (relativePath expr) false pathSigns (s ++ parts.flatMap (·.1))
      (first :: (parts.map (·.2)).flatten) :=
  (h.many (by decide) (fun _ hs => (refuses_pathSeparator (hs.mono (by decide))).bind _) hparts
    fun first others => first :: others.flatten).rule

/-- A step alone is a relative path. -/
theorem Written.oneStep {s : Text} {first : Step}
    (h : Written (step expr) false stepSigns s first) :
    Written (relativePath expr) false pathSigns s [first] :=
  (h.alone (by decide) (fun _ hs => (refuses_pathSeparator (hs.mono (by decide))).bind _)
    fun first (others : List (List Step)) => first :: others.flatten).rule

/-! ## Location paths -/

/-- The text is not the beginning of a primary expression. -/
inductive NoPrimary : Text → Prop
  | slash (s : Text) : NoPrimary ('/' :: s)
  | sign (s : Text) : NoPrimary ('@' :: s)
  | point (s : Text) : NoPrimary ('.' :: '/' :: s)
  | close (s : Text) : NoPrimary (')' :: s)

theorem NoPrimary.append {s : Text} (h : NoPrimary s) (t : Text) : NoPrimary (s ++ t) := by
  cases h with
  | slash s => exact .slash (s ++ t)
  | sign s => exact .sign (s ++ t)
  | point s => exact .point (s ++ t)
  | close s => exact .close (s ++ t)

theorem refuses_filterPath {inner : Parser Expr} {s : Text} (h : NoPrimary s) :
    (filterPath inner).Refuses s := by
  have havoids : Avoids ['(', 'n', 't', 'c'] s := by
    cases h <;> exact avoids_cons (by decide) _
  have hgap : skipGap s = s := by
    cases h <;> exact skipGap_cons_of_not_isGap (by decide)
  have hstring : scanString s = none := by
    cases h <;> rfl
  have hnumber : scanNumber s = none := by
    cases h <;> rfl
  have hname : scanName s = none := by
    cases h <;> rfl
  have hkind : nodeType.Refuses s := by
    rcases nodeType_refuses_or_reads s with hrefuses | ⟨kind, hkind, after, hs, -⟩
    · exact hrefuses
    · have hwords : ∀ kind ∈ kindWords, ¬ Avoids ['(', 'n', 't', 'c'] kind.1 := by decide
      exact absurd ⟨after, hs.symm⟩ (havoids.not_begins (hwords kind hkind))
  have hbrackets := refuses_exactly_of_avoids havoids
    (by decide : ¬ Avoids ['(', 'n', 't', 'c'] "(".toList)
  have hcall : (functionCall inner).Refuses s := by
    have hblanks := reads_blanks s
    rw [hgap] at hblanks
    exact ((hkind.bind _).absent.bind_refuses
      (hblanks.bind_refuses ((refuses_lexeme hname).rule.bind _))).rule
  have hprimary : (primary inner).Refuses s := by
    refine Refuses.rule (refuses_oneOf ?_)
    intro parser hparser
    simp only [List.mem_cons, List.not_mem_nil, or_false] at hparser
    rcases hparser with rfl | rfl | rfl | rfl
    · exact hbrackets.bind _
    · exact (refuses_lexeme hstring).rule.bind _
    · exact (refuses_lexeme hnumber).rule.bind _
    · exact hcall
  exact ((hprimary.bind _).rule.bind _).rule

/-- A path from the root begins with a slash. -/
theorem refuses_absolutePath {inner : Parser Expr} {s : Text} (h : Avoids ['/'] s) :
    (absolutePath inner).Refuses s := by
  refine Refuses.rule (Refuses.orElse ?_ ?_)
  · exact (refuses_exactly_of_avoids h (by decide)).rule.bind _
  · exact (refuses_exactly_of_avoids h (by decide)).rule.bind _

/-- A relative path that is not taken for a primary expression starts at the context node. -/
theorem written_pathFromContext {s : Text} {steps : List Step}
    (hfilter : ∀ rest, (filterPath expr).Refuses (s ++ rest))
    (hslash : ∀ rest, Avoids ['/'] (s ++ rest))
    (h : Written (relativePath expr) false pathSigns s steps) :
    Written (pathExpr expr) false pathSigns s (.path .context steps) where
  starts := h.starts
  reads := by
    intro rest hrest
    have hroot : (absolutePath expr).Refuses (s ++ rest) := refuses_absolutePath (hslash rest)
    have hrelative := (h.reads rest hrest).bind_pure fun steps => Expr.path .context steps
    have hlocation : (locationPath expr).ReadsUpTo (s ++ rest) (.path .context steps) rest :=
      (hroot.orElse_readsUpTo hrelative).rule
    exact ((hfilter rest).orElse_readsUpTo hlocation).rule

/-- A relative path that begins as a location path starts at the context node. -/
theorem written_contextPath {s : Text} {steps : List Step} (hstart : NoPrimary s)
    (hslash : ∀ rest, Avoids ['/'] (s ++ rest))
    (h : Written (relativePath expr) false pathSigns s steps) :
    Written (pathExpr expr) false pathSigns s (.path .context steps) :=
  written_pathFromContext (fun rest => refuses_filterPath (hstart.append rest)) hslash h

/-- A relative path behind a separator starts at the root. -/
theorem written_rootPath {sign s : Text} {skipped steps : List Step}
    (hsign : Separator sign skipped)
    (hslash : ∀ rest, Avoids ['/'] (s ++ rest))
    (h : Written (relativePath expr) false pathSigns s steps) :
    Written (pathExpr expr) false pathSigns (sign ++ s) (.path .root (skipped ++ steps)) where
  starts := by
    obtain ⟨after, rfl⟩ := hsign.cons
    exact ⟨'/', after ++ s, rfl, by decide, by decide⟩
  reads := by
    intro rest hrest
    have hstart : NoPrimary (sign ++ s ++ rest) := by
      obtain ⟨after, rfl⟩ := hsign.cons
      exact .slash _
    have hrelative := h.reads rest hrest
    rw [← (h.starts.append rest).skipGap] at hrelative
    have habsolute :
        (absolutePath expr).ReadsUpTo (sign ++ s ++ rest) (.path .root (skipped ++ steps))
        rest := by
      rw [List.append_assoc]
      cases hsign with
      | descendants =>
        have hsteps := hrelative.bind_pure fun steps => Expr.path .root (.descendantOrSelf :: steps)
        have hlong : (do
            let _ ← rule (exactly "//".toList)
            blanks
            let steps ← relativePath expr
            return .path .root (.descendantOrSelf :: steps) : Parser Expr).ReadsUpTo
            (['/', '/'] ++ (s ++ rest)) (.path .root (.descendantOrSelf :: steps)) rest :=
          (reads_exactly "//".toList (s ++ rest)).rule.upTo.bind_blanks_upTo hsteps
        exact (hlong.orElse _).rule
      | children =>
        have hlong : (exactly "//".toList).Refuses (['/'] ++ (s ++ rest)) :=
          refuses_exactly (slash_not_begins (hslash rest))
        have hsteps := hrelative.optional.bind_pure fun steps => Expr.path .root (steps.getD [])
        have hshort : (do
            let _ ← rule (exactly "/".toList)
            blanks
            let steps ← optional (relativePath expr)
            return .path .root (steps.getD []) : Parser Expr).ReadsUpTo
            (['/'] ++ (s ++ rest)) (.path .root steps) rest :=
          (reads_exactly "/".toList (s ++ rest)).rule.upTo.bind_blanks_upTo hsteps
        exact ((hlong.rule.bind _).orElse_readsUpTo hshort).rule
    exact ((refuses_filterPath hstart).orElse_readsUpTo
      ((habsolute.orElse _).rule)).rule

end TreeSelect.XPath
