/-!
# JSON values

The values of a JSON text, kept close to how they are written.  A number keeps its digits, since
whether it is an integer depends on its spelling, and a string may hold no valid text, since an
escape can name half of a surrogate pair.  Members of an object keep their order and their
repetitions.
-/

namespace DalvikFacts

/-- A number as it is written: sign, digits on both sides of the point, and exponent. -/
structure Numeral where
  negative : Bool
  whole : List Nat
  fraction : List Nat
  exponent : Option Int
  deriving DecidableEq, Inhabited

/-- A JSON value.  The text of a string is absent when one of its surrogate escapes is unpaired. -/
inductive Json
  | null
  | bool (value : Bool)
  | number (numeral : Numeral)
  | string (text : Option String)
  | array (items : List Json)
  | object (members : List (Option String × Json))
  deriving Inhabited

namespace Numeral

/-- The natural number written by decimal digits, most significant first. -/
def ofDigits (digits : List Nat) : Nat :=
  digits.foldl (fun value digit => 10 * value + digit) 0

/--
The integer a numeral stands for.  A point, an exponent, a negative zero and a magnitude beyond
64 bits each make the numeral a floating point one.
-/
def toInt? (numeral : Numeral) : Option Int :=
  let magnitude := ofDigits numeral.whole
  if !numeral.fraction.isEmpty || numeral.exponent.isSome then none
  else if numeral.negative then
    if 0 < magnitude ∧ magnitude ≤ 0x8000000000000000 then some (-(magnitude : Int)) else none
  else
    if magnitude < 0x10000000000000000 then some (magnitude : Int) else none

/-- The decimal digits of a natural number, most significant first. -/
def digitsOf (value : Nat) : List Nat :=
  (Nat.toDigits 10 value).map fun digit => digit.toNat - '0'.toNat

/-- The numeral of an integer. -/
def ofInt (value : Int) : Numeral where
  negative := value < 0
  whole := digitsOf value.natAbs
  fraction := []
  exponent := none

end Numeral

namespace Json

/-- A string value holding valid text. -/
def text (value : String) : Json := .string (some value)

/-- An integer value. -/
def int (value : Int) : Json := .number (.ofInt value)

/-- A natural number value. -/
def nat (value : Nat) : Json := .int value

/-- An object whose keys are valid text. -/
def record (members : List (String × Json)) : Json :=
  .object (members.map fun member => (some member.1, member.2))

/-- An array of strings. -/
def texts (values : List String) : Json := .array (values.map text)

/-- The value of an optional part, null when it is absent. -/
def ofOption {α : Type} (encode : α → Json) : Option α → Json
  | none => .null
  | some value => encode value

end Json
end DalvikFacts
