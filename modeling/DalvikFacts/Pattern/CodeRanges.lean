import DalvikFacts.Pattern.Basic

/-!
# Code points of character sets

The code points of a set, as ranges in a normal form: sorted, apart from each other, and without
regard to how the set was written.
-/

namespace DalvikFacts.CharSet

/-- The code point behind another one. -/
def codeAfter (code : Nat) : Nat := if code = 0xd7ff then 0xe000 else code + 1

/-- The code point before another one. -/
def codeBefore (code : Nat) : Nat := if code = 0xe000 then 0xd7ff else code - 1

/-- Adds a range to sorted ranges, last first; it starts no earlier than any of them. -/
def joinRange : List (Nat × Nat) → Nat × Nat → List (Nat × Nat)
  | [], range => [range]
  | last :: ranges, range =>
    if range.1 ≤ last.2 + 1 then (last.1, Nat.max last.2 range.2) :: ranges
    else range :: last :: ranges

/-- The same code points in ranges that are sorted and apart from each other. -/
def normalRanges (ranges : List (Nat × Nat)) : List (Nat × Nat) :=
  ((ranges.mergeSort fun a b => a.1 ≤ b.1).foldl joinRange []).reverse

/-- The code points from a start on that lie outside of normal ranges. -/
def rangesOutside (start : Nat) : List (Nat × Nat) → List (Nat × Nat)
  | [] => if start ≤ 0x10ffff then [(start, 0x10ffff)] else []
  | (low, high) :: ranges =>
    (if start < low then [(start, codeBefore low)] else []) ++
      rangesOutside (codeAfter high) ranges

/-- The code points of a set in normal ranges. -/
def codeRanges (set : CharSet) : List (Nat × Nat) :=
  let ranges := normalRanges (set.ranges.map fun range => (range.1.toNat, range.2.toNat))
  if set.negated then rangesOutside 0 ranges else ranges

end DalvikFacts.CharSet
