/-!
# UTF-16 code units

Texts measured and hashed by code units: a character beyond U+FFFF counts as two, the halves of
its surrogate pair.
-/

namespace DalvikFacts.Text

/-- The code units of a character. -/
def charUnits (c : Char) : List Nat :=
  if c.toNat < 0x10000 then [c.toNat]
  else [0xD800 + (c.toNat - 0x10000) / 0x400, 0xDC00 + (c.toNat - 0x10000) % 0x400]

/-- The code units of a text. -/
def units (text : String) : List Nat :=
  text.toList.flatMap charUnits

/-- The polynomial hash of a text: each code unit in turn after multiplying by 31, as a 32 bit
signed number that wraps around. -/
def polynomialHash (text : String) : Int :=
  ((units text).map Int.ofNat).foldl (fun hash unit => (hash * 31 + unit).bmod 0x100000000) 0

end DalvikFacts.Text
