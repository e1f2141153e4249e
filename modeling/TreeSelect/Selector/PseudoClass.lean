import TreeSelect.Path.Position
import TreeSelect.Selector.Error
import TreeSelect.Text.Blank
import TreeSelect.Text.Digit

/-!
# Pseudo-classes

The pseudo-classes `:first-child`, `:last-child` and `:nth-child(…)` are conditions on the position.
The argument of `:nth-child` is `odd`, `even`, a number, a cycle such as `3n+1`, or, when it is none
of these, a condition that is taken as it stands.
-/

namespace TreeSelect

/-- The supported pseudo-classes. -/
inductive PseudoClass
  | firstChild
  | lastChild
  | nthChild
  deriving DecidableEq, Repr

/-- The pseudo-class of a name. -/
def PseudoClass.ofName (name : Text) : Except SelectorError PseudoClass :=
  if name = "first-child".toList then .ok .firstChild
  else if name = "last-child".toList then .ok .lastChild
  else if name = "nth-child".toList then .ok .nthChild
  else .error (.unknownPseudoClass name)

namespace Position

/-- Digits without the zeros in front of the number. -/
def withoutLeadingZeros (digits : Text) : Text :=
  match digits.dropWhile (· == '0') with
  | [] => ['0']
  | rest => rest

/-- The multiple and the offset of a cycle, written `3n+1` with blanks allowed around the plus. -/
def cycle? (argument : Text) : Option (Text × Text) :=
  let multiple := argument.takeWhile Text.isDecimalDigit
  match argument.dropWhile Text.isDecimalDigit with
  | 'n' :: rest =>
    match rest.dropWhile Text.isBlank with
    | '+' :: rest =>
      let offset := rest.dropWhile Text.isBlank
      if multiple ≠ [] ∧ offset ≠ [] ∧ offset.all Text.isDecimalDigit then some (multiple, offset)
      else none
    | _ => none
  | _ => none

/-- The positions that a trimmed argument of `:nth-child` describes. -/
def ofNthChild (argument : Text) : Position :=
  if argument.lower = "odd".toList then .odd
  else if argument.lower = "even".toList then .even
  else if Text.allDigits argument then .index (withoutLeadingZeros argument)
  else
    match cycle? argument with
    | some (multiple, offset) => .cycle (withoutLeadingZeros multiple) (withoutLeadingZeros offset)
    | none => .raw argument

/-- The positions of a pseudo-class.  Only `:nth-child` looks at its argument. -/
def ofPseudo (name : Text) (argument : Option Text) : Except SelectorError Position := do
  match ← PseudoClass.ofName name with
  | .firstChild => return .first
  | .lastChild => return .last
  | .nthChild =>
    match (argument.getD []).trim with
    | [] => throw (.invalid (':' :: name) 0 .missingArgument)
    | argument => return ofNthChild argument

end Position
end TreeSelect
