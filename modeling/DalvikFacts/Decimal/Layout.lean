import DalvikFacts.Decimal.Shortest

/-!
# Decimal text of floating point numbers

A number is written with its shortest digits, either positionally or with an exponent.  A
positional text always has a digit on each side of the point; an exponential one has a point only
when more than one digit is left.
-/

namespace DalvikFacts.Decimal

/-- How floating point numbers are written. -/
structure Layout where
  /-- The least exponent written positionally. -/
  lowest : Int
  /-- The greatest exponent written positionally. -/
  highest : Int
  infinity : String
  notANumber : String

/-- A floating point number by its parts. -/
inductive Parts
  | zero (negative : Bool)
  | finite (negative : Bool) (magnitude : Binary)
  | infinite (negative : Bool)
  | notANumber

namespace Parts

/--
The parts of an encoded number with the given widths of the fraction and exponent fields.  The
encoding is read as a natural number.
-/
def ofEncoding (fractionBits exponentBits : Nat) (encoding : Nat) : Parts :=
  let leading : Nat := 1 <<< fractionBits
  let fields : Nat := 1 <<< exponentBits
  let fraction := encoding % leading
  let field := (encoding >>> fractionBits) % fields
  let negative := encoding.testBit (fractionBits + exponentBits)
  let bias : Int := (fields / 2 : Nat) - 1
  if field == fields - 1 then
    if fraction == 0 then .infinite negative else .notANumber
  else if field == 0 then
    if fraction == 0 then .zero negative
    else .finite negative ⟨fraction, 1 - bias - fractionBits, false⟩
  else
    .finite negative
      ⟨fraction + leading, field - bias - fractionBits, fraction == 0 && 1 < field⟩

/-- The parts of a double. -/
def ofDouble (value : Float) : Parts :=
  ofEncoding 52 11 value.toBits.toNat

/-- The parts of a single precision number. -/
def ofSingle (value : Float32) : Parts :=
  ofEncoding 23 8 value.toBits.toNat

end Parts

/-- The text of decimal digits. -/
def digitText (digits : List Nat) : String :=
  String.ofList (digits.map Nat.digitChar)

/-- Zeros. -/
def zeros (count : Nat) : List Nat :=
  List.replicate count 0

/-- Digits written positionally, with at least one on each side of the point. -/
def Digits.positional (number : Digits) : String :=
  let point := number.point
  let whole := number.digits.take point.toNat ++ zeros (point.toNat - number.digits.length)
  let fraction := zeros (-point).toNat ++ number.digits.drop point.toNat
  let atLeastOne (digits : List Nat) := if digits.isEmpty then [0] else digits
  digitText (atLeastOne whole) ++ "." ++ digitText (atLeastOne fraction)

/-- Digits written with an exponent. -/
def Digits.exponential (number : Digits) : String :=
  let fraction := number.digits.drop 1
  digitText (number.digits.take 1) ++
    (if fraction.isEmpty then "" else "." ++ digitText fraction) ++
    "e" ++ toString (number.point - 1)

/-- The text of a nonzero finite magnitude. -/
def Layout.magnitude (layout : Layout) (magnitude : Binary) : String :=
  let number := shortest magnitude
  if layout.lowest < number.point ∧ number.point ≤ layout.highest + 1 then number.positional
  else number.exponential

/-- The text of a number. -/
def Layout.text (layout : Layout) (parts : Parts) : String :=
  let signed (negative : Bool) (text : String) := if negative then "-" ++ text else text
  match parts with
  | .zero negative => signed negative "0.0"
  | .finite negative magnitude => signed negative (layout.magnitude magnitude)
  | .infinite negative => signed negative layout.infinity
  | .notANumber => layout.notANumber

end DalvikFacts.Decimal
