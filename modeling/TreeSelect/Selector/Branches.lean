import TreeSelect.Text.Blank

/-!
# Branches of a selector list

A selector list holds branches between commas.  A comma in brackets, in parentheses or in quotes
belongs to its branch.
-/

namespace TreeSelect

/-- Where a scan of a selector list stands: how many brackets are open, and in which quotes it is. -/
structure Nesting where
  depth : Nat := 0
  quote : Option Char := none
  deriving DecidableEq, Repr

namespace Nesting

/-- The nesting after one more character.  A closing bracket without an opening one is ignored. -/
def next (nesting : Nesting) (c : Char) : Nesting :=
  match nesting.quote with
  | some quote => if c = quote then { nesting with quote := none } else nesting
  | none =>
    if c = '\'' ∨ c = '"' then { nesting with quote := some c }
    else if c = '[' ∨ c = '(' then { nesting with depth := nesting.depth + 1 }
    else if c = ']' ∨ c = ')' then { nesting with depth := nesting.depth - 1 }
    else nesting

/-- Whether a comma at this place ends a branch. -/
def isTop (nesting : Nesting) : Bool := nesting.depth == 0 && nesting.quote.isNone

end Nesting

/-- The texts between the commas that end a branch. -/
def cutBranches (nesting : Nesting) : Text → List Text
  | [] => [[]]
  | c :: rest =>
    if c = ',' ∧ nesting.isTop then [] :: cutBranches nesting rest
    else (cutBranches (nesting.next c) rest).modifyHead (c :: ·)

/-- A branch of a selector list: its text without blanks around it, and the byte position of that
text in the list. -/
structure Branch where
  offset : Nat
  text : Text
  deriving DecidableEq, Repr

/-- The branch of what stands between two commas, `offset` bytes after the start of the list. -/
def Branch.ofCut (offset : Nat) (cut : Text) : Branch :=
  ⟨offset + Text.bytes (cut.takeWhile Text.isBlank), cut.trim⟩

/-- The branches of neighbouring cuts, the first of them `offset` bytes after the start. -/
def branchesFrom (offset : Nat) : List Text → List Branch
  | [] => []
  | cut :: cuts => .ofCut offset cut :: branchesFrom (offset + cut.bytes + 1) cuts

/-- The branches of a selector list. -/
def branches (list : Text) : List Branch := branchesFrom 0 (cutBranches {} list)

end TreeSelect
