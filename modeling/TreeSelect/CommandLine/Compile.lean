import TreeSelect.Compiler.Basic
import TreeSelect.Json.Writer

/-!
# The command `compile`

The expressions are compiled one after another with one cache, so that a branch that occurs again is
found there.
-/

namespace TreeSelect.CommandLine

/-- An expression and its XPath text. -/
structure CompiledExpression where
  expression : Text
  xpath : Text
  deriving DecidableEq, Repr

/-- What the command reports: the compiled expressions and the lookups in the cache. -/
structure CompileReport where
  results : List CompiledExpression
  hits : Nat
  misses : Nat
  deriving DecidableEq, Repr

/-- Compiles expressions with one cache up to the first that fails. -/
def compileEach (cache : Cache) (type : ExpressionType) (relative : Bool) :
    List Text → Except SelectorError (List CompiledExpression × Cache)
  | [] => .ok ([], cache)
  | expression :: rest =>
    match Compiler.compile cache relative expression type with
    | (.error error, _) => .error error
    | (.ok xpath, cache) => do
      let (others, cache) ← compileEach cache type relative rest
      return (⟨expression, xpath⟩ :: others, cache)

/-- The report on all expressions. -/
def compileAll (expressions : List Text) (type : ExpressionType) (relative : Bool) :
    Except SelectorError CompileReport := do
  let (results, cache) ← compileEach .empty type relative expressions
  return ⟨results, cache.hits, cache.misses⟩

namespace CompileReport

/-- The report as lines; one expression alone is not labelled. -/
def lines (report : CompileReport) : List Text :=
  match report.results with
  | [single] => [single.xpath]
  | results => results.map fun result =>
    result.expression ++ "  => ".toList ++ result.xpath

/-- The report as a JSON value. -/
def json (report : CompileReport) : Json :=
  .object [
    ("results".toList, .array (report.results.map fun result => .object [
      ("expression".toList, .string result.expression),
      ("xpath".toList, .string result.xpath)])),
    ("cache".toList, .object [
      ("hits".toList, .ofNat report.hits),
      ("misses".toList, .ofNat report.misses)])]

end CompileReport
end TreeSelect.CommandLine
