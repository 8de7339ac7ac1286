import DalvikFacts.Json.Basic

/-!
# Binary values of numerals

How a numeral becomes a binary floating point number.  Integers convert exactly rounded.  Any
other numeral keeps as many leading digits as fit into 64 bits, and is scaled by one or more
powers of ten, each step rounded by itself; the result may be one unit away from the nearest
double, and a value too large for a double has no result.
-/

namespace DalvikFacts.Numeral

/-- Digits kept in 64 bits, and the power of ten they are to be scaled by. -/
structure Scaled where
  significand : Nat
  exponent : Int

namespace Scaled

/-- Whether a digit still fits behind the digits kept so far. -/
def fits (scaled : Scaled) (digit : Nat) : Bool :=
  scaled.significand * 10 + digit < 0x10000000000000000

/-- Takes the digits before the point; once one does not fit, the rest only count. -/
def takeWhole (scaled : Scaled) : List Nat → Scaled
  | [] => scaled
  | digit :: rest =>
    if scaled.fits digit then
      takeWhole { scaled with significand := scaled.significand * 10 + digit } rest
    else
      { scaled with exponent := scaled.exponent + (rest.length + 1 : Nat) }

/-- Takes the digits after the point; once one does not fit, the rest is dropped. -/
def takeFraction (scaled : Scaled) : List Nat → Scaled
  | [] => scaled
  | digit :: rest =>
    if scaled.fits digit then
      takeFraction ⟨scaled.significand * 10 + digit, scaled.exponent - 1⟩ rest
    else scaled

/-- A power of ten up to the largest one a double can hold. -/
def power (exponent : Nat) : Float :=
  Float.ofScientific 1 false exponent

/--
Multiplies by a power of ten.  An exponent beyond the largest power is worked off in steps of
that power; four steps bring every 64 bit significand down to zero.
-/
def scaleLoop : Nat → Float → Int → Option Float
  | 0, value, _ => some value
  | fuel + 1, value, exponent =>
    if exponent.natAbs ≤ 308 then
      if 0 ≤ exponent then
        let scaled := value * power exponent.natAbs
        if scaled.isInf then none else some scaled
      else some (value / power exponent.natAbs)
    else if value == 0 then some value
    else if 0 ≤ exponent then none
    else scaleLoop fuel (value / power 308) (exponent + 308)

/-- The double of a scaled significand, absent when it is too large. -/
def toFloat? (scaled : Scaled) : Option Float :=
  scaleLoop 4 scaled.significand.toUInt64.toFloat scaled.exponent

end Scaled

/-- The digits of a numeral that count, without its exponent. -/
def scaled (numeral : Numeral) : Scaled :=
  (Scaled.takeWhole ⟨0, 0⟩ numeral.whole).takeFraction numeral.fraction

/-- The magnitude of a numeral; an exponent beyond 32 bits is infinitely large or small. -/
def magnitude? (numeral : Numeral) : Option Float :=
  let scaled := numeral.scaled
  match numeral.exponent with
  | none => scaled.toFloat?
  | some exponent =>
    if exponent.natAbs < 0x80000000 then
      let total := max (-0x80000000) (min 0x7fffffff (scaled.exponent + exponent))
      { scaled with exponent := total }.toFloat?
    else if scaled.significand != 0 && 0 < exponent then none
    else some 0

/-- The double of a numeral, absent when it is too large for one. -/
def toFloat? (numeral : Numeral) : Option Float :=
  match numeral.toInt? with
  | some value =>
    let magnitude := value.natAbs.toUInt64.toFloat
    some (if value < 0 then -magnitude else magnitude)
  | none => numeral.magnitude?.map fun value => if numeral.negative then -value else value

/-- The single precision number of a numeral: integers round once, others through the double. -/
def toFloat32? (numeral : Numeral) : Option Float32 :=
  match numeral.toInt? with
  | some value =>
    let magnitude := value.natAbs.toUInt64.toFloat32
    some (if value < 0 then -magnitude else magnitude)
  | none => numeral.toFloat?.map Float.toFloat32

end DalvikFacts.Numeral
