import TreeSelect.Document.Element
import TreeSelect.Document.Basic

/-!
# Sessions

A session is a document together with the handles through which it is asked: the document's own,
copies of it, and the elements that have been handed out.  All handles share the document, so that
what one of them has compiled is in the cache for the others.

`Document.ask` is one question through one handle, and `Session.run` any number of steps, each of
which names its handle by the place at which it was handed out.
-/

namespace TreeSelect

/-- What a document is asked through. -/
inductive Handle
  | document
  | element (node : Address)
  deriving DecidableEq, Repr

/-- The element of a handle, where queries by a selector start. -/
def Handle.element? : Handle → Option Address
  | .document => none
  | .element node => some node

/-- What can be asked. -/
inductive Question
  | find (expression : Text) (type : ExpressionType)
  | first (expression : Text) (type : ExpressionType)
  | has (expression : Text) (type : ExpressionType)
  | count (expression : Text) (type : ExpressionType)
  /-- Asks a document in its own type of expressions. -/
  | select (expression : Text)
  /-- Asks a document for all that an XPath expression finds. -/
  | xpath (expression : Text)
  /-- Asks an element whether a selector finds it. -/
  | matchesSelector (selector : Text)
  deriving DecidableEq, Repr

/-- What an answer tells. -/
inductive Answer
  | elements (found : List Address)
  | element (found : Option Address)
  | truth (value : Bool)
  | number (value : Nat)
  | items (found : List XPath.Item)

/-- The handles that an answer hands out. -/
def Answer.handles : Answer → List Handle
  | .elements found => found.map .element
  | .element found => found.toList.map .element
  | _ => []

namespace Document

/-- The result of a query as an answer, and the document after the query. -/
def telling {α : Type} (answer : α → Answer) (queried : Except DocumentError α × Document) :
    Except DocumentError Answer × Document :=
  (queried.1.map answer, queried.2)

/-- The answer to a question and the document after it; none where the handle does not take the
question. -/
def ask (document : Document) (handle : Handle) (question : Question) :
    Option (Except DocumentError Answer × Document) :=
  match question, handle with
  | .find expression type, handle =>
    some (telling .elements (document.findFrom handle.element? expression type))
  | .first expression type, handle =>
    some (telling .element (document.firstFrom handle.element? expression type))
  | .has expression type, handle =>
    some (telling .truth (document.hasFrom handle.element? expression type))
  | .count expression type, handle =>
    some (telling .number (document.countFrom handle.element? expression type))
  | .select expression, .document => some (telling .elements (document.select expression))
  | .xpath expression, .document => some (telling .items (document.xpath expression, document))
  | .matchesSelector selector, .element node =>
    some (telling .truth (document.matchesSelector node selector))
  | _, _ => none

end Document

/-! ## Steps -/

/-- A document and the handles that have been handed out. -/
structure Session where
  document : Document
  handles : List Handle := [.document]

/-- What is done next, with a handle named by its place. -/
inductive SessionStep
  | copy (handle : Nat)
  | parent (handle : Nat)
  | children (handle : Nat)
  | ask (handle : Nat) (question : Question)

/-- A question that was answered. -/
structure Exchange where
  handle : Handle
  question : Question
  answer : Except DocumentError Answer

namespace Session

/-- The session of a new document over a tree. -/
def start (tree : Tree) (defaultType : ExpressionType) : Session where
  document := { tree, defaultType }

/-- The session with more handles. -/
def handOut (session : Session) (handles : List Handle) : Session :=
  { session with handles := session.handles ++ handles }

/-- One step: the question that it answers, if any, and the session after it.  A step that the handle
does not take, or whose handle is not there, does nothing. -/
def step (session : Session) : SessionStep → Option Exchange × Session
  | .copy handle => (none, session.handOut session.handles[handle]?.toList)
  | .parent handle =>
    match session.handles[handle]? with
    | some (.element element) =>
      let parent := Element.parent? session.document.tree element
      (none, session.handOut (parent.toList.map .element))
    | _ => (none, session)
  | .children handle =>
    match session.handles[handle]? with
    | some (.element element) =>
      let children := Element.children session.document.tree element
      (none, session.handOut (children.map .element))
    | _ => (none, session)
  | .ask place question =>
    match session.handles[place]? with
    | none => (none, session)
    | some handle =>
      match session.document.ask handle question with
      | none => (none, session)
      | some (answer, document) =>
        let found := (answer.toOption.map Answer.handles).getD []
        (some ⟨handle, question, answer⟩, { session with document }.handOut found)

/-- The questions answered in steps, in their order, and the session after the last of them. -/
def run (session : Session) : List SessionStep → List Exchange × Session
  | [] => ([], session)
  | step :: steps =>
    let (exchange, session) := session.step step
    let (exchanges, session) := session.run steps
    (exchange.toList ++ exchanges, session)

end Session
end TreeSelect
