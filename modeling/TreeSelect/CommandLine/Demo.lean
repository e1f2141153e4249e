import TreeSelect.Document.Basic
import TreeSelect.Document.Element
import TreeSelect.Json.Writer

/-!
# The command `demo`

An expression is tried on a small page of a blog, and the elements that it finds are shown.
-/

namespace TreeSelect.CommandLine

/-! ## The page -/

/-- An element around children. -/
def elementOf (name : String) (children : List Tree) : Tree :=
  (Tree.element name.toList).withChildren children

/-- An element around one text. -/
def textElement (name text : String) : Tree := (Tree.element name.toList).withText text.toList

/-- A tree with one more attribute. -/
def set (name value : String) (tree : Tree) : Tree := tree.withAttribute name.toList value.toList

/-- A post of the blog. -/
def post (number : Nat) (title : String) (tags : List String) : Tree :=
  elementOf "article" [
      textElement "h2" title,
      set "class" "summary" (textElement "p" ("Summary of post " ++ toString number ++ ".")),
      set "class" "tags" (elementOf "ul" (tags.map fun tag =>
        set "class" "tag" (textElement "li" tag)))]
    |> set "class" (if number = 1 then "post featured" else "post")
    |> set "id" ("post-" ++ toString number)

/-- The links at the head of the page. -/
def navigation : Tree :=
  set "id" "nav" (elementOf "nav" [elementOf "ul" [
    elementOf "li" [set "href" "/" (textElement "a" "Home")],
    elementOf "li" [set "rel" "author" (set "href" "/about" (textElement "a" "About"))]]])

/-- The page. -/
def samplePage : Tree :=
  Tree.document.withChild (elementOf "html" [elementOf "body" [
    elementOf "header" [textElement "h1" "csspath demo", navigation],
    elementOf "main" [
      post 1 "Parsing selectors" ["css", "parsing"],
      post 2 "Walking trees" ["xpath"],
      post 3 "Caching results" ["cache", "perf", "rust"]],
    elementOf "footer" [set "style" "color: gray" (textElement "p" "Footer")]]])

/-! ## The report -/

/-- An element that was found. -/
structure MatchSummary where
  tag : Text
  id : Option Text
  classes : List Text
  text : Text
  deriving DecidableEq, Repr

/-- What the command reports: the XPath text of the expression and the elements it finds. -/
structure DemoReport where
  xpath : Text
  found : List MatchSummary
  deriving DecidableEq, Repr

/-- The summary of an element. -/
def summarize (tree : Tree) (element : Address) : MatchSummary :=
  { tag := Element.tag tree element
    id := Element.id? tree element
    classes := (Element.classList tree element).classes
    text := Element.text tree element }

/-- The report on an expression. -/
def queryPage (expression : Text) (type : ExpressionType) : Except DocumentError DemoReport := do
  let xpath ← (Compiler.compile .empty false expression type).1.mapError .selector
  let document : Document := { tree := samplePage }
  let elements ← (document.find expression type).1
  return ⟨xpath, elements.map (summarize samplePage)⟩

namespace MatchSummary

/-- The tag, the id and the classes as a selector writes them. -/
def labelText (summary : MatchSummary) : Text :=
  summary.tag ++ (match summary.id with
    | none => []
    | some id => '#' :: id) ++ summary.classes.flatMap ('.' :: ·)

/-- The summary as a line. -/
def line (summary : MatchSummary) : Text := summary.labelText ++ ' ' :: Text.quoted summary.text

/-- The summary as a JSON value. -/
def json (summary : MatchSummary) : Json :=
  .object [
    ("tag".toList, .string summary.tag),
    ("id".toList, .ofText? summary.id),
    ("classes".toList, .array (summary.classes.map .string)),
    ("text".toList, .string summary.text)]

end MatchSummary

namespace DemoReport

/-- The report as lines. -/
def lines (report : DemoReport) : List Text :=
  ("xpath: ".toList ++ report.xpath) ::
    (Nat.toDigits 10 report.found.length ++ " match(es)".toList) ::
    report.found.map MatchSummary.line

/-- The report as a JSON value. -/
def json (report : DemoReport) : Json :=
  .object [
    ("xpath".toList, .string report.xpath),
    ("matches".toList, .array (report.found.map MatchSummary.json))]

end DemoReport
end TreeSelect.CommandLine
