import DalvikFacts.Pattern.Program.Sets
import DalvikFacts.Pattern.Program.Words
import DalvikFacts.Pattern.Shape

/-!
# Programs of patterns

A pattern is accepted only if its programs are small enough.  A program reads UTF-8 byte by byte,
from the front or from the back; this module tells which states it takes.  A character takes a
state a byte, and a set of characters takes the states that tell its encodings apart.

A pattern that is a long list of words needs no program.
-/

namespace DalvikFacts

open Program

namespace Shape

/-- The bytes of a shape that is a text, in the order in which they are read. -/
def bytes (direction : Direction) : Shape → List Nat
  | text codes =>
    codes.flatMap fun code =>
      match direction with
      | .forward => Text.Utf8.bytes code
      | .backward => (Text.Utf8.bytes code).reverse
  | _ => []

mutual

/-- Adds the states of a shape.  Only a program from the front has states for the ends of groups.
A repetition that may match an empty text is told from none at all by states of its own. -/
def addTo (direction : Direction) : Shape → Program → Option Program
  | empty, program | atStart, program | atEnd, program => program.grow 1 0
  | text codes, program =>
    program.grow (codes.foldl (fun length code => length + Text.Utf8.width code) 0) 0
  | oneOf ranges, program => program.addSet direction ranges
  | group inner, program =>
    match direction with
    | .forward => do (← inner.addTo direction (← program.grow 1 0)).grow 1 0
    | .backward => inner.addTo direction program
  | repeated .optional inner, program => do
    (← inner.addTo direction (← program.grow 1 (2 * branchSize))).grow 1 0
  | repeated .several inner, program => do
    (← inner.addTo direction program).grow 1 (2 * branchSize)
  | repeated .many inner, program =>
    if inner.alwaysReads then do inner.addTo direction (← program.grow 1 (2 * branchSize))
    else do (← inner.addTo direction program).grow 3 (4 * branchSize)
  | row parts, program => addRow direction parts program
  | choice options, program =>
    if options.all isText then program.addWords (options.map (·.bytes direction))
    else addOptions direction 0 options program

/-- Adds the states of parts in the order in which they are read. -/
def addRow (direction : Direction) : List Shape → Program → Option Program
  | [], program => some program
  | part :: parts, program =>
    match part.addTo direction program with
    | some program => addRow direction parts program
    | none => none

/-- Adds the states of alternatives behind so many others.  What leads to all alternatives, and
what all of them lead to, comes behind the second one. -/
def addOptions (direction : Direction) (before : Nat) : List Shape → Program → Option Program
  | [], program => some program
  | option :: options, program =>
    let joined := if before = 1 then 2 else 0
    let branches := if before = 0 then 0 else if before = 1 then 2 else 1
    match (option.addTo direction program).bind (·.grow joined (branches * branchSize)) with
    | some program => addOptions direction (before + 1) options program
    | none => none

end

/-- The shortest list of words that is searched for without a program. -/
def longList : Nat := 3000

/-- Whether a shape is a long list of words. -/
def isLongList : Shape → Bool
  | choice options => longList ≤ options.length && options.all isText
  | _ => false

/-- The program of a shape that is given as it is read.  Any number of bytes may come before a
match, unless it is bound to where the program starts. -/
def program? (shape : Shape) (direction : Direction) : Option Program := do
  let before ←
    if shape.startsAtStart then Program.start.grow 1 0
    else Program.start.grow 3 (transitionSize + 2 * branchSize)
  let whole ← (Shape.group shape).addTo direction before
  whole.grow 1 0

end Shape

/-- Whether a pattern needs no program or its programs are small enough. -/
def Pattern.isSmall (pattern : Pattern) : Bool :=
  let shape := pattern.shape
  shape.isLongList ||
    (shape.program? .forward).isSome && (shape.reversed.program? .backward).isSome

end DalvikFacts
