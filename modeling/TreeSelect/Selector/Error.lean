import TreeSelect.Text.Quoted

/-!
# What can be wrong with a selector

An error names its cause; `SelectorError.message` is the one place that puts causes into words.
-/

namespace TreeSelect

/-- Why a place of a selector is not accepted. -/
inductive Fault
  /-- The place is past the end or inside a character. -/
  | outside
  /-- No segment is left. -/
  | empty
  /-- No segment begins with this character. -/
  | unexpected (found : Char)
  /-- The child sign stands where a segment should begin. -/
  | childWithoutSegment
  /-- The child sign is the end of the selector. -/
  | childAtEnd
  /-- This text in brackets is no attribute condition. -/
  | attribute (condition : Text)
  /-- The pseudo-class needs an argument. -/
  | missingArgument
  deriving DecidableEq, Repr

/-- What a JSON value is, for messages. -/
inductive JsonKind
  | null | boolean | number | string | array | object
  deriving DecidableEq, Repr

/-- Why a value handed in beside a selector is not accepted. -/
inductive ArgumentFault
  /-- No kind of expression has this name. -/
  | expressionType (name : Text)
  /-- A stored cache is a JSON object, and this is none. -/
  | cacheKind (found : JsonKind)
  /-- A stored cache has strings for values, and this entry has another. -/
  | entryKind (key : Text) (found : JsonKind)
  deriving DecidableEq, Repr

/-- Why a selector was not compiled. -/
inductive SelectorError
  /-- The selector is not accepted at a byte position. -/
  | invalid (selector : Text) (offset : Nat) (fault : Fault)
  /-- The pseudo-class is not supported. -/
  | unknownPseudoClass (name : Text)
  /-- A value handed in beside a selector is not accepted. -/
  | invalidArgument (fault : ArgumentFault)
  deriving DecidableEq, Repr

/-- The wording of a fault. -/
def Fault.reason : Fault → Text
  | .outside => "cursor is outside the selector".toList
  | .empty => "empty selector".toList
  | .unexpected found => "unexpected ".toList ++ Text.quotedChar found
  | .childWithoutSegment => "'>' must follow a selector".toList
  | .childAtEnd => "'>' must be followed by a selector".toList
  | .attribute condition => "unsupported attribute expression [".toList ++ condition ++ "]".toList
  | .missingArgument => "nth-child requires an argument".toList

/-- The wording of a kind of JSON value. -/
def JsonKind.text : JsonKind → Text
  | .null => "null".toList
  | .boolean => "a boolean".toList
  | .number => "a number".toList
  | .string => "a string".toList
  | .array => "an array".toList
  | .object => "an object".toList

/-- The wording of a fault of an argument. -/
def ArgumentFault.reason : ArgumentFault → Text
  | .expressionType name => "unknown expression type ".toList ++ Text.quoted name
  | .cacheKind found => "compiled cache must be a JSON object, got ".toList ++ found.text
  | .entryKind key found =>
    "compiled cache entry ".toList ++ Text.quoted key ++ " must be a string, got ".toList ++
      found.text

namespace SelectorError

/-- The wording of an error. -/
def message : SelectorError → Text
  | .invalid selector offset fault =>
    "invalid selector ".toList ++ Text.quoted selector ++ " at byte ".toList ++
      Nat.toDigits 10 offset ++ ": ".toList ++ fault.reason
  | .unknownPseudoClass name => "unknown pseudo-class ':".toList ++ name ++ "'".toList
  | .invalidArgument fault => "invalid argument: ".toList ++ fault.reason

/-- The byte position of an error that has one. -/
def offset? : SelectorError → Option Nat
  | .invalid _ offset _ => some offset
  | _ => none

/-- The error as seen from a text that holds the selector `shift` bytes after its start. -/
def within (whole : Text) (shift : Nat) : SelectorError → SelectorError
  | .invalid _ offset fault => .invalid whole (offset + shift) fault
  | error => error

end SelectorError
end TreeSelect
