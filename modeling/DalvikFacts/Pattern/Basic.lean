/-!
# Patterns

Regular expressions that select names, and the search for a match anywhere in a text.

The search goes through a text once.  It keeps the pattern with marks on those of its character
sets that took part in reading the last character, one mark for every way in which the text so
far can lead there.  A match ends where a mark can leave the pattern.
-/

namespace DalvikFacts

/-- A set of characters. -/
structure CharSet where
  ranges : List (Char × Char)
  negated : Bool
  deriving DecidableEq

/-- How often something may be repeated. -/
inductive Repetition
  /-- At most once. -/
  | optional
  /-- Any number of times. -/
  | many
  /-- At least once. -/
  | several
  deriving DecidableEq

/-- A regular expression. -/
inductive Pattern
  | empty
  | atStart
  | atEnd
  | one (set : CharSet)
  | sequence (first second : Pattern)
  | choice (left right : Pattern)
  | repeated (times : Repetition) (inner : Pattern)
  /-- A pattern in parentheses, which may keep what it matched. -/
  | enclosed (kept : Bool) (inner : Pattern)
  deriving DecidableEq

namespace CharSet

/-- Whether a character belongs to a set. -/
def contains (set : CharSet) (c : Char) : Bool :=
  (set.ranges.any fun range => range.1 ≤ c && c ≤ range.2) != set.negated

/-- A single character. -/
def single (c : Char) : CharSet := ⟨[(c, c)], false⟩

/-- Any character but a line break. -/
def anyButLineBreak : CharSet := ⟨[('\n', '\n')], true⟩

end CharSet

/-- A pattern with marks on the character sets that read the last character. -/
inductive Marked
  | empty
  | atStart
  | atEnd
  | one (set : CharSet) (marked : Bool)
  | sequence (first second : Marked)
  | choice (left right : Marked)
  /-- One or more matches in a row. -/
  | several (inner : Marked)

/-- What is known of a position in a text. -/
structure Position where
  first : Bool
  last : Bool

namespace Marked

/-- Whether a match can end at a position, where one may start there if the pattern is entered. -/
def leaves (position : Position) : Marked → Bool → Bool
  | empty, entered => entered
  | atStart, entered => entered && position.first
  | atEnd, entered => entered && position.last
  | one _ marked, _ => marked
  | sequence first second, entered => second.leaves position (first.leaves position entered)
  | choice left right, entered =>
    left.leaves position entered || right.leaves position entered
  | several inner, entered => inner.leaves position entered

/-- Reads the character behind a position.  With the new marks comes whether a match could end at
the position; a repetition is entered again wherever it could be left. -/
def advance (position : Position) (c : Char) : Marked → Bool → Marked × Bool
  | empty, entered => (empty, entered)
  | atStart, entered => (atStart, entered && position.first)
  | atEnd, entered => (atEnd, entered && position.last)
  | one set marked, entered => (one set (entered && set.contains c), marked)
  | sequence first second, entered =>
    let (first, passed) := first.advance position c entered
    let (second, left) := second.advance position c passed
    (sequence first second, left)
  | choice left right, entered =>
    let (left, leftEnds) := left.advance position c entered
    let (right, rightEnds) := right.advance position c entered
    (choice left right, leftEnds || rightEnds)
  | several inner, entered =>
    let (inner, ended) := inner.advance position c (entered || inner.leaves position entered)
    (several inner, ended)

/-- Whether a match ends in the rest of a text, where one may start anywhere. -/
def search (pattern : Marked) (first : Bool) : List Char → Bool
  | [] => pattern.leaves ⟨first, true⟩ true
  | c :: rest =>
    let (pattern, found) := pattern.advance ⟨first, false⟩ c true
    found || pattern.search false rest

end Marked

namespace Pattern

/-- A pattern before anything is read. -/
def unmarked : Pattern → Marked
  | empty => .empty
  | atStart => .atStart
  | atEnd => .atEnd
  | one set => .one set false
  | sequence first second => .sequence first.unmarked second.unmarked
  | choice left right => .choice left.unmarked right.unmarked
  | repeated .optional inner => .choice .empty inner.unmarked
  | repeated .many inner => .choice .empty (.several inner.unmarked)
  | repeated .several inner => .several inner.unmarked
  | enclosed _ inner => inner.unmarked

/-- Whether a pattern matches somewhere in a text. -/
def isMatch (pattern : Pattern) (text : String) : Bool :=
  pattern.unmarked.search true text.toList

/-- Whether a text passes an optional filter. -/
def passes (filter : Option Pattern) (text : String) : Bool :=
  filter.all (·.isMatch text)

end Pattern
end DalvikFacts
