import TreeSelect.Proofs.XPath.Building
import TreeSelect.Proofs.XPath.Depth

/-!
# The texts that are accepted

Reading a text has two stages: the grammar is matched, and the builder makes an expression of the
pairs.  The parser does both at once.  It realizes the rule for expressions (`realizes_expr`, by
induction on the length of the text), so that it accepts what the grammar matches, and on the pairs
of a match the builder makes the same expression and has none of its errors
(`parse_ok_iff_hasMatch`).
-/

namespace TreeSelect.XPath

open TreeSelect.Peg (Mode Pair Pattern)
open TreeSelect.XPath.Parser TreeSelect.XPath.Builder

variable {input : Text} {n : Nat}

section Operands

variable {expr : Parser Expr} (hexpr : Realizes input n expr .spaced (.rule .expr) IsExpr)
include hexpr

/-! ## Unions and signs -/

theorem realizes_unionExpr :
    Realizes input (n + 1) (Grammar.unionExpr expr) .spaced (.rule .unionExpr) IsExpr := by
  refine Realizes.isExpr (by decide) (by decide) ?_
  refine (realizes_pathExpr hexpr).andThen fun first text pairs hfirst => ?_
  refine (realizes_separated "|" (by decide) (realizes_pathExpr hexpr)).map
    fun others more rest hothers gap => ?_
  have hall := buildAll_eq (.cons hfirst hothers)
  rw [buildExpr]
  simp only [hall]
  cases others with
  | nil => rfl
  | cons second others => rfl

omit hexpr in
theorem negate_negated (negations : Nat) (operand : Expr) :
    .negate (negated negations operand) = negated negations (.negate operand) := by
  induction negations generalizing operand with
  | zero => rfl
  | succ negations ih => exact ih (.negate operand)

omit hexpr in
/-- The minus signs are counted, and then wrapped around the operand. -/
theorem buildUnary_eq {signs : List Text} {pairs : List (Pair Rule)}
    (h : FitsAll (fun _ text pairs => pairs = [Pair.node Rule.neg text []]) signs pairs)
    {operand : Pair Rule} {value : Expr} (hrule : operand.rule ≠ .neg)
    (hvalue : buildExpr operand = .ok value) (negations : Nat) :
    buildUnary negations (pairs ++ [operand]) =
      .ok (signs.foldl (fun operand _ => .negate operand) (negated negations value)) := by
  induction h generalizing negations with
  | nil =>
    rw [List.nil_append, buildUnary, if_neg hrule]
    simp only [hvalue]
    rfl
  | @cons sign text pairs signs others h _ ih =>
    subst h
    have hcounted : buildUnary negations (.node .neg text [] :: (others ++ [operand])) =
        buildUnary (negations + 1) (others ++ [operand]) := rfl
    rw [List.singleton_append, List.cons_append, hcounted, ih, List.foldl_cons, negate_negated]
    rfl

theorem realizes_unaryExpr :
    Realizes input (n + 1) (Grammar.unaryExpr expr) .spaced (.rule .unaryExpr) IsExpr := by
  refine Realizes.isExpr (by decide) (by decide) ?_
  have hsign : Realizes input (n + 1) (Parser.rule (exactly "-".toList)) .spaced (.rule .neg)
      fun _ text pairs => text ≠ [] ∧ pairs = [.node .neg text []] := by
    refine (realizes_sign (by decide) rfl fun _ => realizes_exactly _).mono
      fun _ text pairs hvalue => ?_
    obtain ⟨-, rfl, hpairs⟩ := hvalue
    exact ⟨by decide, hpairs⟩
  refine (hsign.many fun _ _ _ hvalue => hvalue.1).andThen fun signs text pairs hsigns => ?_
  refine (realizes_unionExpr hexpr).map fun operand more others hoperand gap => ?_
  obtain ⟨pair, rfl, hrule, hpair⟩ := hoperand
  exact buildUnary_eq (hsigns.mono fun _ _ _ hvalue => hvalue.2) hrule hpair 0

/-! ## Operators -/

theorem realizes_disjunction :
    Realizes input (n + 1) (Grammar.disjunction expr) .spaced (.rule .orExpr) IsExpr := by
  have hmultiplicative : Realizes input (n + 1) (Grammar.multiplicative expr) .spaced
      (.rule .multiplicativeExpr) IsExpr :=
    realizes_chain rfl (by decide) rfl (fun _ _ => rfl) (realizes_unaryExpr hexpr)
      (Realizes.orElse (realizes_wordOperator rfl rfl rfl) (realizes_wordOperator rfl rfl rfl))
  have hadditive : Realizes input (n + 1) (Grammar.additive expr) .spaced (.rule .additiveExpr)
      IsExpr :=
    realizes_chain rfl (by decide) rfl (fun _ _ => rfl) hmultiplicative
      (realizes_signOperator rfl rfl)
  have hrelational : Realizes input (n + 1) (Grammar.relational expr) .spaced
      (.rule .relationalExpr) IsExpr :=
    realizes_chain rfl (by decide) rfl (fun _ _ => rfl) hadditive (realizes_signOperator rfl rfl)
  have hequality : Realizes input (n + 1) (Grammar.equality expr) .spaced (.rule .equalityExpr)
      IsExpr :=
    realizes_chain rfl (by decide) rfl (fun _ _ => rfl) hrelational (realizes_signOperator rfl rfl)
  have hconjunction : Realizes input (n + 1) (Grammar.conjunction expr) .spaced (.rule .andExpr)
      IsExpr :=
    realizes_chain rfl (by decide) rfl (fun _ _ => rfl) hequality
      (realizes_wordOperator rfl rfl rfl)
  exact realizes_chain rfl (by decide) rfl (fun _ _ => rfl) hconjunction
    (realizes_wordOperator rfl rfl rfl)

end Operands

/-! ## Expressions -/

/-- The induction is on the length of the text, since the rule for expressions uses itself behind
brackets only. -/
theorem realizes_expr (n : Nat) : Realizes input n Grammar.expr .spaced (.rule .expr) IsExpr := by
  induction n with
  | zero =>
    constructor
    · intro cursor value next hlt
      cases hlt
    · intro cursor hlt
      cases hlt
  | succ n ih =>
    rw [Grammar.expr_eq]
    refine Realizes.isExpr (by decide) (by decide) ?_
    exact (realizes_disjunction ih).mono fun _ _ _ hvalue => hvalue.buildFirst_eq _

theorem result_atEnd (cursor : Cursor) :
    (Grammar.atEnd cursor).result = if cursor.rest.isEmpty then some ((), cursor) else none :=
  result_rule _ cursor

theorem realizes_atEnd :
    Realizes input n Grammar.atEnd .spaced (.rule .endOfInput) fun _ _ _ => True where
  gives := by
    intro cursor value next _ hresult
    rw [result_atEnd] at hresult
    split at hresult
    case isTrue hempty =>
      cases hresult
      have hnothing : cursor.rest = [] ++ cursor.rest := rfl
      exact ⟨[], _, hnothing, .rule hnothing (.finish (List.isEmpty_iff.1 hempty)), trivial⟩
    case isFalse => cases hresult
  fails := by
    intro cursor _ hresult
    rw [result_atEnd] at hresult
    split at hresult
    case isTrue => cases hresult
    case isFalse hempty =>
      exact .rule_fails (.finish_fails fun hrest => hempty (List.isEmpty_iff.2 hrest))

/-! ## Whole texts -/

/-- The grammar matches the text, and these are the pairs of the match. -/
def HasMatch (s : Text) (pairs : List (Pair Rule)) : Prop :=
  ∃ rest, Peg.Matches grammar s .spaced (.rule .xpath) s (some (pairs, rest))

/-- The grammar does not match the text. -/
def HasNoMatch (s : Text) : Prop := Peg.Matches grammar s .spaced (.rule .xpath) s none

theorem HasMatch.unique {s : Text} {pairs others : List (Pair Rule)} (h : HasMatch s pairs)
    (hother : HasMatch s others) : pairs = others := by
  obtain ⟨rest, hmatches⟩ := h
  obtain ⟨rest', hmatches'⟩ := hother
  cases hmatches.unique hmatches'
  rfl

theorem HasMatch.not_hasNoMatch {s : Text} {pairs : List (Pair Rule)} (h : HasMatch s pairs) :
    ¬ HasNoMatch s := by
  obtain ⟨rest, hmatches⟩ := h
  intro hnone
  cases hmatches.unique hnone

/-- Behind the beginning, a text is an expression and nothing else. -/
theorem realizes_whole :
    Realizes input n (blanks >>= fun _ => Grammar.expr >>= fun result => blanks >>=
        fun _ => Grammar.atEnd >>= fun _ => pure result) .spaced
      (.seq .gap (Pattern.sequence (.rule .expr) [.rule .endOfInput]))
      fun value _ pairs => ∀ text, build [.node .xpath text pairs] = .ok value := by
  refine realizes_blanks.bind (fun _ _ _ _ => Nat.le_add_right n _) fun _ gap none hnone => ?_
  refine (realizes_expr n).andThen fun value text pairs hvalue => ?_
  obtain ⟨pair, rfl, -, hpair⟩ := hvalue
  refine realizes_atEnd.map fun _ _ _ _ gap => ?_
  rw [hnone]
  exact fun _ => hpair

theorem result_whole (p : Parser Expr) (cursor : Cursor) :
    (Grammar.whole p cursor).result = ((blanks >>= fun _ => p >>= fun result => blanks >>=
      fun _ => Grammar.atEnd >>= fun _ => pure result) cursor).result :=
  result_rule _ cursor

/-- Of a text that the parser accepts, the builder makes the same expression. -/
theorem exists_hasMatch {s : Text} {expr : Expr} (h : parse s = .ok expr) :
    ∃ pairs, HasMatch s pairs ∧ build pairs = .ok expr := by
  have hparse := result_of_parse s
  rw [h] at hparse
  obtain ⟨⟨_, next⟩, hresult, rfl⟩ := Option.map_eq_some_iff.1 hparse
  rw [result_whole] at hresult
  obtain ⟨text, pairs, hrest, hmatches, hbuild⟩ :=
    realizes_whole.gives (Nat.lt_succ_self s.length) hresult
  have hbody : Peg.Matches grammar s .spaced (Rule.body .xpath) s (some (pairs, next.rest)) :=
    .seq (.start rfl) hmatches
  exact ⟨[.node .xpath text pairs], ⟨next.rest, .rule hrest hbody⟩, hbuild text⟩

theorem hasNoMatch_of_error {s : Text} {position : Nat} (h : parse s = .error position) :
    HasNoMatch s := by
  have hparse := result_of_parse s
  rw [h] at hparse
  have hresult := Option.map_eq_none_iff.1 hparse
  rw [result_whole] at hresult
  have hbody : Peg.Matches grammar s .spaced (Rule.body .xpath) s none :=
    .seq_fails_second (.start rfl) (realizes_whole.fails (Nat.lt_succ_self s.length) hresult)
  exact .rule_fails hbody

/-- On the pairs of a match the builder makes the expression of the parser. -/
theorem HasMatch.build_eq {s : Text} {pairs : List (Pair Rule)} (h : HasMatch s pairs) :
    ∃ expr, parse s = .ok expr ∧ build pairs = .ok expr := by
  cases hparse : parse s with
  | error position => exact absurd (hasNoMatch_of_error hparse) h.not_hasNoMatch
  | ok expr =>
    obtain ⟨others, hothers, hbuild⟩ := exists_hasMatch hparse
    rw [h.unique hothers]
    exact ⟨expr, rfl, hbuild⟩

/-- A text is accepted if and only if the grammar matches it.  The expression is the one that the
builder makes of the pairs of the match, and the builder has no error on them. -/
theorem parse_ok_iff_hasMatch (s : Text) :
    ((∃ expr, parse s = .ok expr) ↔ ∃ pairs, HasMatch s pairs) ∧
      ((∃ position, parse s = .error position) ↔ HasNoMatch s) ∧
      (∀ expr, parse s = .ok expr ↔ ∃ pairs, HasMatch s pairs ∧ build pairs = .ok expr) ∧
      ∀ pairs error, HasMatch s pairs → build pairs ≠ .error error := by
  refine ⟨⟨?_, ?_⟩, ⟨?_, ?_⟩, fun expr => ⟨exists_hasMatch, ?_⟩, ?_⟩
  · rintro ⟨expr, hparse⟩
    obtain ⟨pairs, hmatch, -⟩ := exists_hasMatch hparse
    exact ⟨pairs, hmatch⟩
  · rintro ⟨pairs, hmatch⟩
    obtain ⟨expr, hparse, -⟩ := hmatch.build_eq
    exact ⟨expr, hparse⟩
  · rintro ⟨position, hparse⟩
    exact hasNoMatch_of_error hparse
  · intro hnone
    cases hparse : parse s with
    | error position => exact ⟨position, rfl⟩
    | ok expr =>
      obtain ⟨pairs, hmatch, -⟩ := exists_hasMatch hparse
      exact absurd hnone hmatch.not_hasNoMatch
  · rintro ⟨pairs, hmatch, hbuild⟩
    obtain ⟨other, hparse, hother⟩ := hmatch.build_eq
    rw [hbuild] at hother
    cases hother
    exact hparse
  · intro pairs error hmatch herror
    obtain ⟨expr, -, hbuild⟩ := hmatch.build_eq
    rw [herror] at hbuild
    cases hbuild

end TreeSelect.XPath
