import DalvikFacts.Pattern.Program

/-!
# Reading patterns

A pattern is read from left to right by a machine with a stack of open groups.  Known are
characters, `.`, `^`, `$`, classes in brackets, groups, `|`, the repetitions `*`, `+` and `?`, each
of which may be marked lazy, and a backslash before a punctuation mark.

Groups, repetitions, classes, alternatives and sequences of several items may be nested, but not
deeper than `Pattern.deepest`.
-/

namespace DalvikFacts.Pattern

/-- A pattern that was read, with how deep it is nested. -/
structure Nested where
  pattern : Pattern
  depth : Nat

namespace Nested

/-- A pattern that nests nothing. -/
def flat (pattern : Pattern) : Nested := ⟨pattern, 0⟩

/-- A pattern inside of something. -/
def within (nested : Nested) (f : Pattern → Pattern) : Nested :=
  ⟨f nested.pattern, nested.depth + 1⟩

/-- Two patterns side by side. -/
def beside (f : Pattern → Pattern → Pattern) (left right : Nested) : Nested :=
  ⟨f left.pattern right.pattern, Nat.max left.depth right.depth⟩

end Nested

/-- How deep a pattern may be nested. -/
def deepest : Nat := 250

/-- A word of a pattern. -/
inductive Token
  | item (nested : Nested)
  | repetition (times : Repetition)
  | bar
  /-- The start of a group, which may keep what it matched. -/
  | openGroup (kept : Bool)
  | closeGroup

/-- Whether a backslash makes a character stand for itself. -/
def isPunctuation (c : Char) : Bool :=
  ' ' < c && c < '\x7f' && !c.isAlphanum && c != '<' && c != '>'

/-- The control character named by a letter behind a backslash. -/
def controlOf? : Char → Option Char
  | 'n' => some '\n'
  | 't' => some '\t'
  | 'r' => some '\r'
  | 'f' => some '\x0c'
  | 'v' => some '\x0b'
  | 'a' => some '\x07'
  | _ => none

/-- The character meant by one behind a backslash. -/
def escapeOf? (c : Char) : Option Char :=
  if isPunctuation c then some c else controlOf? c

/-- A character inside of brackets, and the text after it. -/
def classChar? : List Char → Option (Char × List Char)
  | '\\' :: c :: rest => (escapeOf? c).map (·, rest)
  | '\\' :: [] => none
  | '[' :: _ => none
  | c :: rest => some (c, rest)
  | [] => none

/-- The ranges up to the closing bracket, and the text after it.  Each one takes a character, so
as much fuel as the text is long is enough. -/
def classRanges? : Nat → List (Char × Char) → List Char → Option (List (Char × Char) × List Char)
  | _, done, ']' :: rest => some (done.reverse, rest)
  | 0, _, _ => none
  | fuel + 1, done, text =>
    match classChar? text with
    | none => none
    | some (low, '-' :: ']' :: rest) => some ((('-', '-') :: (low, low) :: done).reverse, rest)
    | some (low, '-' :: rest) =>
      match classChar? rest with
      | none => none
      | some (high, rest) =>
        if low ≤ high then classRanges? fuel ((low, high) :: done) rest else none
    | some (low, rest) => classRanges? fuel ((low, low) :: done) rest

/-- The first ranges of a class, where a closing bracket or dashes stand for themselves. -/
def classBody? (fuel : Nat) (text : List Char) : Option (List (Char × Char) × List Char) :=
  let dashes := (text.takeWhile (· == '-')).map fun c => (c, c)
  match dashes, text.dropWhile (· == '-') with
  | [], ']' :: rest => classRanges? fuel [(']', ']')] rest
  | dashes, rest => classRanges? fuel dashes rest

/-- A class in brackets behind its opening bracket, and the text after it. -/
def class? (fuel : Nat) : List Char → Option (CharSet × List Char)
  | '^' :: rest => (classBody? fuel rest).map fun (ranges, rest) => (⟨ranges, true⟩, rest)
  | rest => (classBody? fuel rest).map fun (ranges, rest) => (⟨ranges, false⟩, rest)

/-- A class as an item.  Its members are inside of it, and several of them inside of their union. -/
def classItem (set : CharSet) : Nested :=
  ⟨.one set, if set.ranges.length = 1 then 1 else 2⟩

/-- Drops the mark of a lazy repetition, which changes no set of matched texts. -/
def dropLazy : List Char → List Char
  | '?' :: rest => rest
  | rest => rest

/-- The word a pattern starts with, and the text after it.  As much fuel as the text is long is
enough. -/
def scanOne? (fuel : Nat) : List Char → Option (Token × List Char)
  | [] => none
  | '*' :: rest => some (.repetition .many, dropLazy rest)
  | '+' :: rest => some (.repetition .several, dropLazy rest)
  | '?' :: rest => some (.repetition .optional, dropLazy rest)
  | '|' :: rest => some (.bar, rest)
  | '(' :: '?' :: ':' :: rest => some (.openGroup false, rest)
  | '(' :: '?' :: _ => none
  | '(' :: rest => some (.openGroup true, rest)
  | ')' :: rest => some (.closeGroup, rest)
  | '.' :: rest => some (.item (.flat (.one .anyButLineBreak)), rest)
  | '^' :: rest => some (.item (.flat .atStart), rest)
  | '$' :: rest => some (.item (.flat .atEnd), rest)
  | '[' :: rest => (class? fuel rest).map fun (set, rest) => (.item (classItem set), rest)
  | '\\' :: c :: rest => (escapeOf? c).map fun c => (.item (.flat (.one (.single c))), rest)
  | '\\' :: [] => none
  | '\x7b' :: _ => none
  | c :: rest => some (.item (.flat (.one (.single c))), rest)

/-- The words of a pattern.  Each one takes a character, so the length is enough fuel. -/
def scan? : Nat → List Token → List Char → Option (List Token)
  | _, done, [] => some done.reverse
  | 0, _, _ :: _ => none
  | fuel + 1, done, text =>
    match scanOne? (fuel + 1) text with
    | none => none
    | some (token, rest) => scan? fuel (token :: done) rest

/-- A group that is still open: the alternatives before the last bar, and the items of the current
one, last first. -/
structure Group where
  kept : Bool
  alternatives : Option Nested
  items : List Nested

namespace Group

/-- A group without anything in it. -/
def start (kept : Bool) : Group := ⟨kept, none, []⟩

/-- The current alternative. -/
def current (group : Group) : Nested :=
  match group.items.reverse with
  | [] => .flat .empty
  | [item] => item
  | item :: items => (items.foldl (Nested.beside .sequence) item).within id

/-- The alternatives up to the current one. -/
def soFar (group : Group) : Nested :=
  match group.alternatives with
  | none => group.current
  | some left => Nested.beside .choice left group.current

/-- All alternatives. -/
def finish (group : Group) : Nested :=
  if group.alternatives.isSome then group.soFar.within id else group.soFar

/-- The group as an item. -/
def close (group : Group) : Nested :=
  group.finish.within (.enclosed group.kept)

/-- Adds an item. -/
def add (group : Group) (item : Nested) : Group :=
  { group with items := item :: group.items }

/-- Repeats the last item of a group, absent when there is none. -/
def repeatLast (group : Group) (times : Repetition) : Option Group :=
  match group.items with
  | [] => none
  | item :: items => some { group with items := item.within (.repeated times) :: items }

end Group

/-- Reads a word with the open groups, innermost first. -/
def step : List Group → Token → Option (List Group)
  | group :: outer, .item nested => some (group.add nested :: outer)
  | group :: outer, .repetition times => (group.repeatLast times).map (· :: outer)
  | group :: outer, .bar =>
    some ({ group with alternatives := some group.soFar, items := [] } :: outer)
  | groups, .openGroup kept => some (.start kept :: groups)
  | inner :: group :: outer, .closeGroup => some (group.add inner.close :: outer)
  | _, _ => none

/-- The pattern of a text, absent when the text is no pattern, nested too deep or too large. -/
def parse? (text : String) : Option Pattern := do
  let chars := text.toList
  match (← scan? chars.length [] chars).foldlM step [.start false] with
  | some [group] =>
    if group.finish.depth ≤ deepest && group.finish.pattern.isSmall then
      some group.finish.pattern
    else none
  | _ => none

end DalvikFacts.Pattern
