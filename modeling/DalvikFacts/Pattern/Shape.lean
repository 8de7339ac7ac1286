import DalvikFacts.Pattern.CodeRanges

/-!
# Shapes of patterns

The shape of a pattern is what is left of it once it is simplified.  Characters in a row are taken
together as a text.  Alternatives that are all single characters, or all sets, become one set, and
what all alternatives start with is taken out of them.  What matches nothing but empty texts is
not repeated.
-/

namespace DalvikFacts

/-- A simplified pattern. -/
inductive Shape
  | empty
  | atStart
  | atEnd
  /-- Code points one after the other. -/
  | text (codes : List Nat)
  /-- A code point out of normal ranges. -/
  | oneOf (ranges : List (Nat × Nat))
  /-- A group that keeps what it matched. -/
  | group (inner : Shape)
  | repeated (times : Repetition) (inner : Shape)
  /-- Several parts one after the other. -/
  | row (parts : List Shape)
  /-- Several alternatives. -/
  | choice (options : List Shape)

namespace Shape

/-- Whether a shape is a text. -/
def isText : Shape → Bool
  | text _ => true
  | _ => false

/-- The range of a shape that is a single character. -/
def single? : Shape → Option (Nat × Nat)
  | text [code] => some (code, code)
  | _ => none

/-- The ranges of a shape that is a set. -/
def ranges? : Shape → Option (List (Nat × Nat))
  | oneOf ranges => some ranges
  | _ => none

/-- The parts of a row. -/
def parts : Shape → List Shape
  | row parts => parts
  | _ => []

/-- The alternatives of a shape, which is the only one itself if it is no choice. -/
def options : Shape → List Shape
  | choice options => options
  | shape => [shape]

mutual

/-- Whether two shapes are the same.  Groups are different ones even if they match the same. -/
def same : Shape → Shape → Bool
  | empty, empty => true
  | atStart, atStart => true
  | atEnd, atEnd => true
  | text codes, text others => codes == others
  | oneOf ranges, oneOf others => ranges == others
  | repeated times inner, repeated otherTimes other => times == otherTimes && inner.same other
  | row parts, row others => allSame parts others
  | choice options, choice others => allSame options others
  | _, _ => false

/-- Whether shapes are the same as others, one by one. -/
def allSame : List Shape → List Shape → Bool
  | [], [] => true
  | shape :: shapes, other :: others => shape.same other && allSame shapes others
  | _, _ => false

end

mutual

/-- Whether a shape matches nothing but empty texts. -/
def onlyEmpty : Shape → Bool
  | empty | atStart | atEnd => true
  | text _ | oneOf _ => false
  | group inner => inner.onlyEmpty
  | repeated _ inner => inner.onlyEmpty
  | row parts => allOnlyEmpty parts
  | choice options => allOnlyEmpty options

/-- Whether all shapes match nothing but empty texts. -/
def allOnlyEmpty : List Shape → Bool
  | [] => true
  | shape :: shapes => shape.onlyEmpty && allOnlyEmpty shapes

end

mutual

/-- Whether a shape may match an empty text. -/
def mayBeEmpty : Shape → Bool
  | empty | atStart | atEnd => true
  | text _ | oneOf _ => false
  | group inner => inner.mayBeEmpty
  | repeated .several inner => inner.mayBeEmpty
  | repeated _ _ => true
  | row parts => allMayBeEmpty parts
  | choice options => anyMayBeEmpty options

/-- Whether all shapes may match an empty text. -/
def allMayBeEmpty : List Shape → Bool
  | [] => true
  | shape :: shapes => shape.mayBeEmpty && allMayBeEmpty shapes

/-- Whether any of some shapes may match an empty text. -/
def anyMayBeEmpty : List Shape → Bool
  | [] => false
  | shape :: shapes => shape.mayBeEmpty || anyMayBeEmpty shapes

end

mutual

/-- Whether an empty set stands anywhere in a shape. -/
def holdsEmptySet : Shape → Bool
  | empty | atStart | atEnd | text _ => false
  | oneOf ranges => ranges.isEmpty
  | group inner => inner.holdsEmptySet
  | repeated _ inner => inner.holdsEmptySet
  | row parts => anyHoldsEmptySet parts
  | choice options => anyHoldsEmptySet options

/-- Whether an empty set stands anywhere in some shapes. -/
def anyHoldsEmptySet : List Shape → Bool
  | [] => false
  | shape :: shapes => shape.holdsEmptySet || anyHoldsEmptySet shapes

end

mutual

/-- Whether every match starts at the start of the text. -/
def startsAtStart : Shape → Bool
  | atStart => true
  | empty | atEnd | text _ | oneOf _ => false
  | group inner => inner.startsAtStart
  | repeated .several inner => inner.startsAtStart
  | repeated _ _ => false
  | row parts => rowStartsAtStart parts
  | choice options => allStartAtStart options

/-- Whether every match of parts in a row starts at the start of the text. -/
def rowStartsAtStart : List Shape → Bool
  | [] => false
  | part :: parts => part.startsAtStart || (part.onlyEmpty && rowStartsAtStart parts)

/-- Whether every match of all shapes starts at the start of the text. -/
def allStartAtStart : List Shape → Bool
  | [] => true
  | shape :: shapes => shape.startsAtStart && allStartAtStart shapes

end

mutual

/-- The shape of the same texts read backward. -/
def reversed : Shape → Shape
  | empty => empty
  | atStart => atEnd
  | atEnd => atStart
  | text codes => text codes.reverse
  | oneOf ranges => oneOf ranges
  | group inner => group inner.reversed
  | repeated times inner => repeated times inner.reversed
  | row parts => row (reversedOnto [] parts)
  | choice options => choice (reversedOnto [] options).reverse

/-- Shapes read backward, last first, in front of others. -/
def reversedOnto (done : List Shape) : List Shape → List Shape
  | [] => done
  | shape :: shapes => reversedOnto (shape.reversed :: done) shapes

end

/-- Whether a shape reads at least one character, whichever way it matches. -/
def alwaysReads (shape : Shape) : Bool := !shape.mayBeEmpty && !shape.holdsEmptySet

/-- The shape of a set of code points. -/
def ofRanges : List (Nat × Nat) → Shape
  | [(low, high)] => if low = high then text [low] else oneOf [(low, high)]
  | ranges => oneOf ranges

/-- Puts a part in front of others; texts next to each other become one. -/
def joinPart : Shape → List Shape → List Shape
  | text codes, text more :: parts => text (codes ++ more) :: parts
  | part, parts => part :: parts

/-- Puts a shape in front of parts, its own parts one by one. -/
def addPart : List Shape → Shape → List Shape
  | parts, empty => parts
  | parts, row more => more.foldr joinPart parts
  | parts, part => joinPart part parts

/-- The shape of shapes one after the other, given last first. -/
def ofItems (items : List Shape) : Shape :=
  match items.foldl addPart [] with
  | [] => empty
  | [part] => part
  | parts => row parts

/-- A repeated shape. -/
def ofRepetition (times : Repetition) (inner : Shape) : Shape :=
  if inner.onlyEmpty then
    match times with
    | .several => inner
    | _ => repeated .optional inner
  else repeated times inner

/-- The parts that two rows start with in common. -/
def commonStart : List Shape → List Shape → List Shape
  | part :: parts, other :: others =>
    if part.same other then part :: commonStart parts others else []
  | _, _ => []

/-- The parts that all alternatives start with. -/
def sharedStart : List Shape → List Shape
  | [] => []
  | option :: options =>
    options.foldl (fun start option => commonStart start option.parts) option.parts

/-- The code points of alternatives that are all single characters, or all sets. -/
def unitedRanges? (options : List Shape) : Option (List (Nat × Nat)) :=
  match options.mapM single? with
  | some singles => some (CharSet.normalRanges singles)
  | none => (options.mapM ranges?).map fun sets => CharSet.normalRanges sets.flatten

/-- The shape of alternatives that share no start. -/
def united (options : List Shape) : Shape :=
  match options.flatMap Shape.options with
  | [option] => option
  | options =>
    match unitedRanges? options with
    | some ranges => ofRanges ranges
    | none => choice options

/-- The shape of alternatives. -/
def ofOptions (options : List Shape) : Shape :=
  let options := options.flatMap Shape.options
  let start := if options.length = 1 then [] else sharedStart options
  if start.isEmpty then united options
  else
    let rest := options.map fun option => ofItems (option.parts.drop start.length).reverse
    ofItems (united rest :: start.reverse)

end Shape

namespace Pattern

/-- The shapes of the items of all alternatives of a pattern, last ones first. -/
def items : Pattern → List (List Shape)
  | empty => [[]]
  | atStart => [[.atStart]]
  | atEnd => [[.atEnd]]
  | one set => [[.ofRanges set.codeRanges]]
  | sequence first second =>
    let before :=
      match first.items with
      | [items] => items
      | options => [.ofOptions (options.reverse.map .ofItems)]
    [.ofOptions (second.items.reverse.map .ofItems) :: before]
  | choice left right => right.items ++ left.items
  | repeated times inner =>
    [[.ofRepetition times (.ofOptions (inner.items.reverse.map .ofItems))]]
  | enclosed kept inner =>
    let shape := Shape.ofOptions (inner.items.reverse.map .ofItems)
    [[if kept then .group shape else shape]]

/-- The shape of a pattern. -/
def shape (pattern : Pattern) : Shape := .ofOptions (pattern.items.reverse.map .ofItems)

end Pattern
end DalvikFacts
