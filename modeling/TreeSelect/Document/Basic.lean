import TreeSelect.Compiler.Basic
import TreeSelect.XPath.Evaluation

/-!
# Documents

A document is a tree together with a cache of compiled selectors, which every query by a selector
consults and may extend.  A query starts at the root or, for the elements below an element, at that
element.  It finds elements: nodes of other kinds are left out.
-/

namespace TreeSelect

/-- A tree that can be queried. -/
structure Document where
  tree : Tree
  cache : Cache := .empty
  defaultType : ExpressionType := .css

/-- Why a query of a document has no answer. -/
inductive DocumentError
  | selector (error : SelectorError)
  | query (error : XPath.QueryError)
  deriving DecidableEq, Repr

namespace Document

/-- The nodes that an XPath expression finds from a node, elements only. -/
def selectElements (tree : Tree) (node : Address) (xpath : Text) :
    Except DocumentError (List Address) :=
  match XPath.query tree node xpath with
  | .error error => .error (.query error)
  | .ok (.scalar _) => .ok []
  | .ok (.nodes nodes) => .ok (nodes.filter fun node => tree.kind? node = some .element)

/-- The elements that an expression finds, and the document after the query.  With an element given,
a selector finds elements below it and an XPath expression starts at it. -/
def findFrom (document : Document) (element : Option Address) (expression : Text)
    (type : ExpressionType) : Except DocumentError (List Address) × Document :=
  let (compiled, cache) := Compiler.compile document.cache element.isSome expression type
  let result := match compiled with
    | .error error => .error (.selector error)
    | .ok xpath => selectElements document.tree (element.getD []) xpath
  (result, { document with cache })

/-- All elements that an expression finds, in document order. -/
def find (document : Document) (expression : Text) (type : ExpressionType) :
    Except DocumentError (List Address) × Document :=
  document.findFrom none expression type

/-- All elements that an expression of the document's own type finds. -/
def select (document : Document) (expression : Text) :
    Except DocumentError (List Address) × Document :=
  document.find expression document.defaultType

/-- The first element that an expression finds, if it finds any. -/
def firstFrom (document : Document) (element : Option Address) (expression : Text)
    (type : ExpressionType) : Except DocumentError (Option Address) × Document :=
  let (result, document) := document.findFrom element expression type
  (result.map List.head?, document)

/-- How many elements an expression finds. -/
def countFrom (document : Document) (element : Option Address) (expression : Text)
    (type : ExpressionType) : Except DocumentError Nat × Document :=
  let (result, document) := document.findFrom element expression type
  (result.map List.length, document)

/-- Whether an expression finds an element. -/
def hasFrom (document : Document) (element : Option Address) (expression : Text)
    (type : ExpressionType) : Except DocumentError Bool × Document :=
  let (result, document) := document.countFrom element expression type
  (result.map fun count => decide (0 < count), document)

/-- Whether an element is among those that a selector finds in the whole document. -/
def matchesSelector (document : Document) (element : Address) (selector : Text) :
    Except DocumentError Bool × Document :=
  let (result, document) := document.find selector .css
  (result.map fun elements => elements.contains element, document)

/-- All that an XPath expression finds from the root. -/
def xpath (document : Document) (expression : Text) :
    Except DocumentError (List XPath.Item) :=
  match XPath.query document.tree [] expression with
  | .error error => .error (.query error)
  | .ok value => .ok value.items

/-- The document with another cache, whose lookups are counted anew. -/
def withEntries (document : Document) (entries : OrderedMap Text Text) : Document :=
  { document with cache := .ofEntries entries }

end Document
end TreeSelect
