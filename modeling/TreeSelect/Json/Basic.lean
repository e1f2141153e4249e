import TreeSelect.Text.Basic

/-!
# JSON values
-/

namespace TreeSelect

/-- A JSON value.  A number is `mantissa` divided by ten to the power `scale`, and the members of an
object stand in the order in which they are written. -/
inductive Json
  | null
  | boolean (value : Bool)
  | number (mantissa : Int) (scale : Nat)
  | string (value : Text)
  | array (elements : List Json)
  | object (members : List (Text × Json))
  deriving Inhabited, Repr

/-- A natural number as a JSON value. -/
def Json.ofNat (n : Nat) : Json := .number n 0

/-- A string or `null`. -/
def Json.ofText? : Option Text → Json
  | none => .null
  | some value => .string value

end TreeSelect
