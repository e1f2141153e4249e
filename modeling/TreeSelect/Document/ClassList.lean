import TreeSelect.Text.Blank

/-!
# Class lists

The classes of an element are the words of its attribute `class`, each once, in the order in which
they first occur.
-/

namespace TreeSelect

/-- The classes of an element. -/
structure ClassList where
  classes : List Text := []
  deriving DecidableEq, Repr

namespace ClassList

/-- A list with the first occurrence of each text. -/
def firstOccurrences : List Text → List Text
  | [] => []
  | word :: words => word :: (firstOccurrences words).filter (· ≠ word)

/-- The classes in the value of an attribute. -/
def parse (value : Text) : ClassList := ⟨firstOccurrences value.words⟩

/-- Whether a class is in the list. -/
def contains (list : ClassList) (name : Text) : Bool := list.classes.any (· = name)

/-- The number of classes. -/
def size (list : ClassList) : Nat := list.classes.length

/-- Whether there are no classes. -/
def isEmpty (list : ClassList) : Bool := list.classes.isEmpty

/-- The classes with a space between neighbours. -/
def text (list : ClassList) : Text := [' '].intercalate list.classes

end ClassList
end TreeSelect
