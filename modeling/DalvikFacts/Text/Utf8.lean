/-!
# UTF-8 byte ranges

The encodings of a range of characters, as rows of byte ranges.  A row stands for all encodings
that take one byte out of each of its ranges; together the rows stand for every character of the
range once.
-/

namespace DalvikFacts.Text

/-- The bytes, or digits, from the first to the second. -/
abbrev ByteRange := Nat × Nat

namespace Utf8

/-- How many bytes encode a code point. -/
def width (code : Nat) : Nat :=
  if code < 0x80 then 1 else if code < 0x800 then 2 else if code < 0x10000 then 3 else 4

/-- The numbers of a range, written with a leading number and so many more digits to the base 64.
All digits are free only between the first and the last leading number. -/
def digitRows : Nat → Nat → Nat → List (List ByteRange)
  | 0, low, high => [[(low, high)]]
  | count + 1, low, high =>
    let block := 1 <<< (6 * (count + 1))
    let first := low / block
    let last := high / block
    let behind (leading : Nat) (rows : List (List ByteRange)) := rows.map ((leading, leading) :: ·)
    if first = last then behind first (digitRows count (low % block) (high % block))
    else
      let opens := low % block = 0
      let closes := high % block = block - 1
      let opening := if opens then [] else behind first (digitRows count (low % block) (block - 1))
      let closing := if closes then [] else behind last (digitRows count 0 (high % block))
      let least := if opens then first else first + 1
      let greatest := if closes then last else last - 1
      let middle :=
        if least ≤ greatest then [(least, greatest) :: List.replicate (count + 1) (0, 63)] else []
      opening ++ middle ++ closing

/-- The bytes of digits, the first of which goes into a leading byte. -/
def bytesOf (leading : Nat) : List ByteRange → List ByteRange
  | [] => []
  | (low, high) :: digits =>
    (leading + low, leading + high) :: digits.map fun (low, high) => (0x80 + low, 0x80 + high)

/-- The ranges of code points encoded alike: the number of bytes behind the leading one, and the
leading byte of zero.  Surrogates are not encoded. -/
def forms : List (ByteRange × Nat × Nat) :=
  [((0x0, 0x7f), 0, 0x0), ((0x80, 0x7ff), 1, 0xc0), ((0x800, 0xd7ff), 2, 0xe0),
    ((0xe000, 0xffff), 2, 0xe0), ((0x10000, 0x10ffff), 3, 0xf0)]

/-- The rows for a range of code points, in the order of the code points. -/
def rows (low high : Nat) : List (List ByteRange) :=
  forms.flatMap fun ((lowest, highest), count, leading) =>
    let low := Nat.max low lowest
    let high := Nat.min high highest
    if low ≤ high then (digitRows count low high).map (bytesOf leading) else []

/-- The bytes of a code point. -/
def bytes (code : Nat) : List Nat := (rows code code).flatten.map Prod.fst

end Utf8
end DalvikFacts.Text
