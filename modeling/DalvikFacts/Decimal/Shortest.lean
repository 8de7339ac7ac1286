/-!
# Shortest decimals

The decimal with the fewest digits that still reads back as a given binary floating point
number, and among those the nearest one, the larger of two equally near ones.

A finite magnitude is `significand * 2 ^ exponent`.  Every real between the midpoints to its two
neighbours reads back as it, the midpoints included when its significand is even.  For 1, 2, …
digits, the grid of decimals with so many digits has two points next to the magnitude; the first
grid with such a point in the interval gives the result.
-/

namespace DalvikFacts.Decimal

/-- A nonzero finite magnitude of a binary format. -/
structure Binary where
  significand : Nat
  exponent : Int
  /-- Whether the neighbour below is only half as far away as the one above. -/
  narrowBelow : Bool

/-- Digits `d₁d₂…`, to be read as `0.d₁d₂… * 10 ^ point`. -/
structure Digits where
  digits : List Nat
  point : Int
  deriving DecidableEq

/-- A rounding interval over a common denominator. -/
structure Interval where
  value : Nat
  low : Nat
  high : Nat
  denominator : Nat
  /-- Whether the two ends belong to the interval. -/
  closed : Bool

namespace Interval

/-- The interval of reals that round to a magnitude. -/
def ofBinary (binary : Binary) : Interval :=
  let m := binary.significand
  -- in quarters of the last place
  let value := 4 * m
  let low := if binary.narrowBelow then 4 * m - 1 else 4 * m - 2
  let high := 4 * m + 2
  let up := binary.exponent.toNat
  let down := (-binary.exponent).toNat
  { value := value <<< up, low := low <<< up, high := high <<< up,
    denominator := 4 <<< down, closed := m % 2 == 0 }

/-- Whether `count / scale` lies in the interval. -/
def contains (interval : Interval) (count scale : Nat) : Bool :=
  let x := count * interval.denominator
  let low := interval.low * scale
  let high := interval.high * scale
  (low < x && x < high) || (interval.closed && (low == x || x == high))

end Interval

/-- A power of ten. -/
def powerOfTen (exponent : Nat) : Nat := Nat.pow 10 exponent

/-- The position of the leading decimal digit: the least `p` with `value < 10 ^ p`. -/
def leadingPoint (numerator denominator : Nat) : Int :=
  let whole := numerator / denominator
  if 0 < whole then (Nat.toDigits 10 whole).length
  else
    let inverse := denominator / numerator
    let guess := (Nat.toDigits 10 inverse).length
    -- `10 ^ (guess - 1) ≤ 1 / value < 10 ^ guess`, up to the fraction dropped by the division
    if numerator * powerOfTen (guess - 1) < denominator then 1 - (guess : Int)
    else 2 - (guess : Int)

/-- The decimal digits of a number without the zeros at its end. -/
def significantDigits (value : Nat) : List Nat :=
  (((Nat.toDigits 10 value).map fun c => c.toNat - '0'.toNat).reverse.dropWhile (· == 0)).reverse

/--
The grid point of the given digit count next to the magnitude that reads back as it: the nearer
of the two neighbours, and the upper one when both are equally near.
-/
def candidate? (interval : Interval) (point : Int) (count : Nat) : Option Digits :=
  -- grid points are `n * 10 ^ (point - count)`
  let shift := point - (count : Int)
  let up := powerOfTen shift.toNat
  let down := powerOfTen (-shift).toNat
  let numerator := interval.value * down
  let denominator := interval.denominator * up
  let below := numerator / denominator
  let rest := numerator % denominator
  let inside (n : Nat) : Bool := interval.contains (n * up) down
  let digitsOf (n : Nat) : Digits :=
    { digits := significantDigits n,
      point := if n == powerOfTen count then point + 1 else point }
  let nearer := if 2 * rest < denominator then below else below + 1
  let farther := if 2 * rest < denominator then below + 1 else below
  if inside nearer then some (digitsOf nearer)
  else if inside farther then some (digitsOf farther)
  else none

/-- Tries digit counts from one on. -/
def searchFrom (interval : Interval) (point : Int) : Nat → Nat → Digits
  | 0, count => (candidate? interval point count).getD ⟨[], point⟩
  | fuel + 1, count =>
    match candidate? interval point count with
    | some digits => digits
    | none => searchFrom interval point fuel (count + 1)

/-- The shortest decimal of a nonzero finite magnitude; seventeen digits always suffice. -/
def shortest (binary : Binary) : Digits :=
  let interval := Interval.ofBinary binary
  searchFrom interval (leadingPoint interval.value interval.denominator) 17 1

end DalvikFacts.Decimal
