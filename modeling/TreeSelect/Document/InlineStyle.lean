import TreeSelect.OrderedMap
import TreeSelect.Text.Blank

/-!
# Inline styles

The value of an attribute `style` holds declarations between semicolons, each a property and a value
with a colon between them.  A declaration without a property or a value is left out.  Properties are
told apart without regard to ASCII case; a repeated one keeps its first place and its last value.
-/

namespace TreeSelect

/-- The declarations of an inline style. -/
structure InlineStyle where
  declarations : OrderedMap Text Text := .empty
  deriving DecidableEq, Repr

namespace InlineStyle

/-- A property as it is compared with others. -/
def propertyKey (property : Text) : Text := property.trim.lower

/-- The property and the value of a declaration. -/
def declaration? (s : Text) : Option (Text × Text) :=
  match s.cut? ':' with
  | none => none
  | some (property, value) =>
    if (propertyKey property).isEmpty || value.trim.isEmpty then none
    else some (propertyKey property, value.trim)

/-- The declarations in the value of an attribute. -/
def parse (value : Text) : InlineStyle := ⟨.ofList ((value.split ';').filterMap declaration?)⟩

/-- The value of a property. -/
def get? (style : InlineStyle) (property : Text) : Option Text :=
  style.declarations.get? (propertyKey property)

/-- Whether a property has a value. -/
def contains (style : InlineStyle) (property : Text) : Bool := (style.get? property).isSome

/-- The number of properties. -/
def size (style : InlineStyle) : Nat := style.declarations.size

/-- Whether there are no properties. -/
def isEmpty (style : InlineStyle) : Bool := style.declarations.isEmpty

/-- The declarations as the value of an attribute. -/
def text (style : InlineStyle) : Text :=
  "; ".toList.intercalate
    (style.declarations.entries.map fun entry => entry.1 ++ ": ".toList ++ entry.2)

end InlineStyle
end TreeSelect
