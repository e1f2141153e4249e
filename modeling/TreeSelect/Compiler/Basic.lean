import TreeSelect.Compiler.Cache
import TreeSelect.Path.OfSelector
import TreeSelect.Selector.Branches

/-!
# Compiling selector lists

A selector list is compiled branch by branch, and the texts of the branches are joined by `|`, the
union of XPath.  The text of each branch is kept in a cache under the branch.  A branch that fails
ends the compilation; the texts of the branches before it stay in the cache.
-/

namespace TreeSelect

/-- The languages of expressions. -/
inductive ExpressionType
  | css
  | xpath
  deriving DecidableEq, Repr

namespace ExpressionType

/-- The name of a language. -/
def text : ExpressionType → Text
  | .css => "css".toList
  | .xpath => "xpath".toList

/-- The language of a name, whose case and surrounding blanks do not matter. -/
def ofText (s : Text) : Except SelectorError ExpressionType :=
  let name := s.trim.lower
  if name = "css".toList then .ok .css
  else if name = "xpath".toList then .ok .xpath
  else .error (.invalidArgument (.expressionType name))

end ExpressionType

namespace Compiler

/-- Compiles one branch, or finds its text in the cache. -/
def compileBranch (cache : Cache) (branch : Text) : Except SelectorError Text × Cache :=
  match cache.lookup branch with
  | (some text, cache) => (.ok text, cache)
  | (none, cache) =>
    match pathText branch .descendant with
    | .ok text => (.ok text, cache.insert branch text)
    | .error error => (.error error, cache)

/-- Compiles branches of the list `whole` in their order up to the first that fails. -/
def compileBranches (whole : Text) : Cache → List Branch → Except SelectorError (List Text) × Cache
  | cache, [] => (.ok [], cache)
  | cache, branch :: rest =>
    match compileBranch cache branch.text with
    | (.error error, cache) => (.error (error.within whole branch.offset), cache)
    | (.ok text, cache) =>
      let (result, cache) := compileBranches whole cache rest
      (result.map (text :: ·), cache)

/-- The texts of branches as one expression; a relative one starts each branch at the context
node. -/
def joinBranches (relative : Bool) (texts : List Text) : Text :=
  ['|'].intercalate (if relative then texts.map ('.' :: ·) else texts)

/-- Compiles an expression.  An XPath expression is its own result and leaves the cache alone. -/
def compile (cache : Cache) (relative : Bool) (expression : Text) :
    ExpressionType → Except SelectorError Text × Cache
  | .xpath => (.ok expression, cache)
  | .css =>
    let (result, cache) := compileBranches expression cache (branches expression)
    (result.map (joinBranches relative), cache)

end Compiler
end TreeSelect
