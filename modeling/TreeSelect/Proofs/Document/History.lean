import TreeSelect.Document.Session
import TreeSelect.Proofs.Compiler.Memoisation

/-!
# Answers do not depend on what was asked before

All handles of a session share one cache, which each of their questions may extend, also a question
that fails.  This module compares the answers of a session with those of a document that nothing has
been asked yet.

* `Document.Forgetful` is what all queries have in common: their answers do not show the cache, and
  they keep it coherent.  `Document.forgetful_findFrom` is the query that the others are made of.
* `Document.ask_tellsFresh` is one question, and `Session.Recalls` the invariant of a session.
* `Session.run_eq_fresh` is the induction over the steps.
-/

namespace TreeSelect

namespace Document

/-! ## One query -/

/-- A document over the same tree that nothing has been asked yet. -/
def fresh (document : Document) : Document := { document with cache := .empty }

/-- Whether a query answers as if nothing had been asked before: with a coherent cache it answers as
it does on the fresh document, and it changes nothing but the cache, which stays coherent. -/
def Forgetful {α : Type} (query : Document → α × Document) : Prop :=
  ∀ document : Document, document.cache.Coherent →
    (query document).1 = (query document.fresh).1 ∧
      (query document).2.cache.Coherent ∧ (query document).2.fresh = document.fresh

/-- What is found is what is found with an empty cache, since the expression compiles to the same
text. -/
theorem forgetful_findFrom (element : Option Address) (expression : Text) (type : ExpressionType) :
    Forgetful fun document => document.findFrom element expression type := by
  intro document hcache
  let request : Compiler.Request := ⟨element.isSome, expression, type⟩
  obtain ⟨hanswer, hnext⟩ := Compiler.compile_spec hcache request
  obtain ⟨hdirect, -⟩ := Compiler.compile_spec Cache.coherent_empty request
  have hcompiled :
      (Compiler.compile document.cache element.isSome expression type).1 =
        (Compiler.compile .empty element.isSome expression type).1 := hanswer.trans hdirect.symm
  refine ⟨?_, hnext, rfl⟩
  simp only [findFrom, fresh, hcompiled]

/-- What is made of the answer to a query is forgetful, too. -/
theorem Forgetful.answering {α β : Type} {query : Document → α × Document} (h : Forgetful query)
    (f : α → β) : Forgetful fun document => (f (query document).1, (query document).2) := by
  intro document hcache
  obtain ⟨hanswer, hkept⟩ := h document hcache
  exact ⟨congrArg f hanswer, hkept⟩

theorem forgetful_firstFrom (element : Option Address) (expression : Text)
    (type : ExpressionType) :
    Forgetful fun document => document.firstFrom element expression type :=
  (forgetful_findFrom element expression type).answering (·.map List.head?)

theorem forgetful_countFrom (element : Option Address) (expression : Text)
    (type : ExpressionType) :
    Forgetful fun document => document.countFrom element expression type :=
  (forgetful_findFrom element expression type).answering (·.map List.length)

theorem forgetful_hasFrom (element : Option Address) (expression : Text) (type : ExpressionType) :
    Forgetful fun document => document.hasFrom element expression type :=
  (forgetful_countFrom element expression type).answering (·.map fun count => decide (0 < count))

/-- The type of expressions that a document selects by is not in the cache. -/
theorem forgetful_select (expression : Text) :
    Forgetful fun document => document.select expression :=
  fun document hcache => forgetful_findFrom none expression document.defaultType document hcache

theorem forgetful_matchesSelector (element : Address) (selector : Text) :
    Forgetful fun document => document.matchesSelector element selector := by
  have hfind : Forgetful fun document => document.find selector .css :=
    forgetful_findFrom none selector .css
  have hmade : ∀ document : Document, document.matchesSelector element selector =
      ((document.find selector .css).1.map fun elements => elements.contains element,
        (document.find selector .css).2) := by
    intro document
    unfold matchesSelector
    cases document.find selector .css
    rfl
  simp only [hmade]
  exact hfind.answering fun result => result.map fun elements => elements.contains element

/-- An XPath expression is not compiled. -/
theorem xpath_fresh (document : Document) (expression : Text) :
    document.fresh.xpath expression = document.xpath expression := by
  have htree : document.fresh.tree = document.tree := rfl
  unfold xpath
  rw [htree]

theorem forgetful_xpath (expression : Text) :
    Forgetful fun document => (document.xpath expression, document) := by
  intro document hcache
  refine ⟨?_, hcache, rfl⟩
  dsimp only
  rw [xpath_fresh]

/-! ## One question -/

/-- Whether a document tells what it would tell if nothing had been asked before, and is left with a
coherent cache and otherwise as it was. -/
def TellsFresh (document : Document)
    (asked : Document → Option (Except DocumentError Answer × Document)) : Prop :=
  (asked document).map Prod.fst = (asked document.fresh).map Prod.fst ∧
    ∀ result ∈ asked document, result.2.cache.Coherent ∧ result.2.fresh = document.fresh

theorem Forgetful.tellsFresh {α : Type} {query : Document → Except DocumentError α × Document}
    (h : Forgetful query) (answer : α → Answer) {document : Document}
    (hcache : document.cache.Coherent) :
    document.TellsFresh fun document => some (telling answer (query document)) := by
  obtain ⟨hanswer, hkept⟩ := h.answering (·.map answer) document hcache
  refine ⟨congrArg some hanswer, ?_⟩
  rintro result ⟨⟩
  exact hkept

/-- A question gets the answer that it gets when nothing has been asked before, and the document
after it differs in its cache alone. -/
theorem ask_tellsFresh {document : Document} (hcache : document.cache.Coherent) (handle : Handle)
    (question : Question) : document.TellsFresh fun document => document.ask handle question := by
  have hrefused : document.TellsFresh fun _ => none := ⟨rfl, by simp⟩
  cases question with
  | find expression type =>
    exact (forgetful_findFrom handle.element? expression type).tellsFresh .elements hcache
  | first expression type =>
    exact (forgetful_firstFrom handle.element? expression type).tellsFresh .element hcache
  | has expression type =>
    exact (forgetful_hasFrom handle.element? expression type).tellsFresh .truth hcache
  | count expression type =>
    exact (forgetful_countFrom handle.element? expression type).tellsFresh .number hcache
  | select expression =>
    cases handle with
    | document => exact (forgetful_select expression).tellsFresh .elements hcache
    | element node => exact hrefused
  | xpath expression =>
    cases handle with
    | document => exact (forgetful_xpath expression).tellsFresh .items hcache
    | element node => exact hrefused
  | matchesSelector selector =>
    cases handle with
    | document => exact hrefused
    | element node => exact (forgetful_matchesSelector node selector).tellsFresh .truth hcache

end Document

namespace Session

/-! ## Any number of steps -/

/-- Whether nothing but the cache of the document has changed since the document was new, and the
cache is coherent. -/
def Recalls (document : Document) (session : Session) : Prop :=
  session.document.cache.Coherent ∧ session.document.fresh = document.fresh

/-- A question that is answered on the way gets the answer of the new document, and every step keeps
what the next one relies on. -/
theorem step_recalls {document : Document} {session : Session} (h : Recalls document session)
    (step : SessionStep) :
    (∀ exchange ∈ (session.step step).1,
        (document.fresh.ask exchange.handle exchange.question).map Prod.fst =
          some exchange.answer) ∧
      Recalls document (session.step step).2 := by
  have hquiet : ∀ handles, (∀ exchange ∈ (none : Option Exchange),
      (document.fresh.ask exchange.handle exchange.question).map Prod.fst =
        some exchange.answer) ∧ Recalls document (session.handOut handles) :=
    fun handles => ⟨by simp, h⟩
  cases step with
  | copy place => exact hquiet _
  | parent place =>
    rw [Session.step]
    split
    · exact hquiet _
    · exact hquiet []
  | children place =>
    rw [Session.step]
    split
    · exact hquiet _
    · exact hquiet []
  | ask place question =>
    obtain ⟨hcache, hfresh⟩ := h
    rw [Session.step]
    split
    case h_1 => exact ⟨by simp, hcache, hfresh⟩
    case h_2 handle _ =>
      obtain ⟨hanswer, hkept⟩ := Document.ask_tellsFresh hcache handle question
      simp only [hfresh] at hanswer
      split
      case h_1 => exact ⟨by simp, hcache, hfresh⟩
      case h_2 answer next hasked =>
        rw [hasked] at hanswer
        obtain ⟨hnext, hsame⟩ := hkept (answer, next) hasked
        refine ⟨?_, hnext, hsame.trans hfresh⟩
        rintro exchange ⟨⟩
        exact hanswer.symm

theorem run_recalls {document : Document} {session : Session} (h : Recalls document session)
    (steps : List SessionStep) :
    (∀ exchange ∈ (session.run steps).1,
        (document.fresh.ask exchange.handle exchange.question).map Prod.fst =
          some exchange.answer) ∧
      Recalls document (session.run steps).2 := by
  induction steps generalizing session with
  | nil => exact ⟨by simp [run], h⟩
  | cons step steps ih =>
    obtain ⟨hfirst, hnext⟩ := step_recalls h step
    obtain ⟨hothers, hlast⟩ := ih hnext
    refine ⟨?_, hlast⟩
    intro exchange hexchange
    rcases List.mem_append.1 hexchange with hmem | hmem
    · exact hfirst exchange (Option.mem_toList.1 hmem)
    · exact hothers exchange hmem

/-- Whatever a new document, its copies and the elements it has handed out are asked, and in whatever
order, each answer is the one that the same handle gives when it is the first to be asked.  This holds
of the answers to steps and of any question that is asked after them. -/
theorem run_eq_fresh (tree : Tree) (type : ExpressionType) (steps : List SessionStep) :
    (∀ exchange ∈ ((start tree type).run steps).1,
        (Document.ask { tree, defaultType := type } exchange.handle exchange.question).map Prod.fst =
          some exchange.answer) ∧
      ∀ handle question,
        (((start tree type).run steps).2.document.ask handle question).map Prod.fst =
          (Document.ask { tree, defaultType := type } handle question).map Prod.fst := by
  have hstart : Recalls { tree, defaultType := type } (start tree type) :=
    ⟨Cache.coherent_empty, rfl⟩
  obtain ⟨hexchanges, hcache, hfresh⟩ := run_recalls hstart steps
  refine ⟨hexchanges, ?_⟩
  intro handle question
  rw [(Document.ask_tellsFresh hcache handle question).1, hfresh]
  rfl

end Session
end TreeSelect
