import DalvikFacts.Fact.Notice
import DalvikFacts.Value

/-!
# Initial values of fields

The text of the constant that a static field starts with.  Null, arrays and references have none.
-/

namespace DalvikFacts

/-- The text of an initial value, by how it is used. -/
inductive InitialValue
  | number (text : String)
  | string (text : String)
  | other (text : String)
  deriving DecidableEq

namespace InitialValue

/-- Numbers are written like other values, but infinity has a name. -/
def layout : Decimal.Layout :=
  { Value.layout with infinity := "Infinity" }

/-- The character of a code unit, or its number when it is half of a surrogate pair. -/
def unitText (unit : Nat) : String :=
  if 0xD800 ≤ unit ∧ unit ≤ 0xDFFF then toString unit else (Char.ofNat unit).toString

/-- The text of a value, absent when it has none. -/
def ofValue? : Value → Option InitialValue
  | .byte value | .short value | .int value | .long value => some (number (toString value))
  | .float value => some (number (layout.text (.ofSingle value)))
  | .double value => some (number (layout.text (.ofDouble value)))
  | .char unit => some (other (unitText unit))
  | .boolean value => some (other (if value then "true" else "false"))
  | .string text => some (string text)
  | _ => none

/-- The notice about a value that is left out. -/
def omission? : Value → Option Notice
  | .array _ => some .arrayInitialValue
  | .methodType _ | .methodHandle _ | .type _ | .field _ | .method _ | .enum _ | .annotated _ =>
    some .referenceInitialValue
  | _ => none

/-- The text itself. -/
def text : InitialValue → String
  | number text | string text | other text => text

end InitialValue
end DalvikFacts
