import DalvikFacts.Pattern.Program.Basic

/-!
# Programs of words

Alternatives that are all plain words are read by a tree: words that start alike share the states
of what they start with.  As the first matching word is the one that counts, a word that ends at a
state parts the words before it from those after it, and only words between two ends share states.
-/

namespace DalvikFacts

/-- The words, in order, that are left to read at a state. -/
abbrev WordState := List (List Nat)

namespace WordState

/-- The words between two ends. -/
def segments (words : WordState) : List WordState :=
  (words.splitBy fun a b => a.isEmpty == b.isEmpty).filter fun run => run.any (!·.isEmpty)

/-- How many words end here.  The ends before any other word count once. -/
def ends (words : WordState) : Nat :=
  let leading := words.takeWhile List.isEmpty
  (if leading.isEmpty then 0 else 1) + (words.drop leading.length).countP List.isEmpty

/-- What is left of words behind each byte that one of them starts with. -/
def branches (words : WordState) : List WordState :=
  let sorted := words.mergeSort fun a b => a.headD 0 ≤ b.headD 0
  (sorted.splitBy fun a b => a.head? == b.head?).map (·.map List.tail)

/-- The states behind a state, apart from the one behind all words. -/
def next (words : WordState) : List WordState :=
  (words.segments.flatMap branches).filter fun rest => rest.any (!·.isEmpty)

/-- Adds a state with a further one for each segment. -/
def add (program : Program) (words : WordState) : Option Program :=
  let transitions := words.segments.map fun segment => segment.branches.length
  let ways := transitions.foldl (fun ways count => if count = 1 then ways else ways + count) 0
  program.grow (1 + transitions.length)
    (Program.branchSize * (transitions.length + words.ends) + Program.transitionSize * ways)

/-- Adds states and those behind them, level by level, for words up to a length. -/
def addLevels : Nat → Program → List WordState → Option Program
  | _, program, [] => some program
  | 0, program, _ => some program
  | length + 1, program, states => do
    addLevels length (← states.foldlM add program) (states.flatMap next)

end WordState

/-- Adds the states that read one of some words, none of which is empty. -/
def Program.addWords (program : Program) (words : List (List Nat)) : Option Program := do
  let length := words.foldl (fun length word => Nat.max length word.length) 0
  WordState.addLevels length (← program.grow 1 0) [words]

end DalvikFacts
