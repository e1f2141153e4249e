import TreeSelect.Main
import TreeSelect.Proofs.Compiler.Memoisation
import TreeSelect.Proofs.Tree.DocumentOrder
import TreeSelect.Proofs.Tree.Nodes
import TreeSelect.Proofs.Tree.Numbering
import TreeSelect.Proofs.XPath.NodeSets
import TreeSelect.Proofs.XPath.Lexemes
import TreeSelect.Proofs.XPath.Reading
import TreeSelect.Proofs.XPath.Depth
import TreeSelect.Proofs.XPath.Operators
import TreeSelect.Proofs.XPath.Names
import TreeSelect.Proofs.XPath.Steps
import TreeSelect.Proofs.XPath.Operands
import TreeSelect.Proofs.Path.Expression
import TreeSelect.Proofs.Path.Meaning
import TreeSelect.Proofs.Selector.ClassNames
import TreeSelect.Proofs.Path.OfSegments
import TreeSelect.Proofs.Compiler.Joined
import TreeSelect.Proofs.Document.Find
import TreeSelect.Proofs.Document.Positions
import TreeSelect.XPath.Tokens
import TreeSelect.Proofs.Text.Brackets
import TreeSelect.Proofs.XPath.Giving
import TreeSelect.Proofs.XPath.Results
import TreeSelect.Proofs.XPath.Scope
import TreeSelect.Proofs.Path.Brackets
import TreeSelect.Proofs.Document.Scope
import TreeSelect.Proofs.XPath.Spelling
import TreeSelect.Proofs.XPath.TokenRules
import TreeSelect.Proofs.XPath.RoundTrip
import TreeSelect.Proofs.Path.Combinators
import TreeSelect.Proofs.Compiler.Commas
import TreeSelect.Proofs.Compiler.Readable
import TreeSelect.Proofs.Selector.Anchored
import TreeSelect.Proofs.Document.Anchored
import TreeSelect.Proofs.Selector.Continued
import TreeSelect.Proofs.Selector.Branches
import TreeSelect.Proofs.Selector.Splitting
import TreeSelect.Proofs.Path.Spelt
import TreeSelect.Document.Session
import TreeSelect.Proofs.Document.History
import TreeSelect.Proofs.Selector.RoundTrip
import TreeSelect.Proofs.Selector.Boundaries
import TreeSelect.XPath.Builder
import TreeSelect.Proofs.XPath.Accepted
import TreeSelect.Proofs.Compiler.Effect
import TreeSelect.Proofs.XPath.Axes
import TreeSelect.Proofs.Path.Walk
import TreeSelect.Proofs.Path.Faults
import TreeSelect.Proofs.Compiler.Faults
import TreeSelect.Proofs.Document.Places
import TreeSelect.Proofs.Document.Cycles
import TreeSelect.Proofs.Document.ClassLists
import TreeSelect.Proofs.XPath.Focus
import TreeSelect.Proofs.XPath.Merging
import TreeSelect.Proofs.XPath.Unions
import TreeSelect.Proofs.XPath.Comparison
import TreeSelect.Proofs.Compiler.Accounting
import TreeSelect.Proofs.Path.Agreement
import TreeSelect.Proofs.Document.Conditions
import TreeSelect.Proofs.XPath.StringValues
import TreeSelect.Proofs.XPath.Descendants
import TreeSelect.Proofs.XPath.NamedSteps
import TreeSelect.Proofs.XPath.Attributes
import TreeSelect.Proofs.Compiler.Persistence
import TreeSelect.Proofs.CommandLine.Reports
import TreeSelect.Proofs.Document.InlineStyles
