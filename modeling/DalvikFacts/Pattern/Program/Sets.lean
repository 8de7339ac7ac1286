import DalvikFacts.Pattern.Program.Basic
import DalvikFacts.Text.Utf8
import Std.Data.HashMap

/-!
# Programs of character sets

A set of characters is read byte by byte.  States that have the same ways out are added once, as
long as they are remembered: there is a limited number of places to remember states in, a state
has its place by what it leads to, and it drives out the state that was there.
-/

namespace DalvikFacts

open Text (ByteRange)

/-- A program that grows by the states of a set, with the states that are remembered. -/
structure SetProgram where
  program : Program
  /-- How many places there are. -/
  places : UInt64
  /-- What the state in a place leads to, and its number. -/
  remembered : Std.HashMap UInt64 (List Nat × Nat)

namespace SetProgram

/-- The place of a state among so many, by the numbers that tell what it leads to. -/
def placeOf (places : UInt64) (key : List Nat) : UInt64 :=
  key.foldl (fun place number => (place ^^^ number.toUInt64) * 0x100000001b3) 0xcbf29ce484222325
    % places

/-- The number of a state that leads somewhere, which is added unless it is remembered. -/
def state (set : SetProgram) (key : List Nat) (ways : Nat) : Option (SetProgram × Nat) :=
  let place := placeOf set.places key
  let add : Option (SetProgram × Nat) := do
    let program ← set.program.grow 1 ways
    let number := set.program.states
    some (⟨program, set.places, set.remembered.insert place (key, number)⟩, number)
  match set.remembered[place]? with
  | some (other, number) => if other = key then some (set, number) else add
  | none => add

/-- The state that starts rows of byte ranges, in order and with at most so many ranges, and leads
to a target behind them.  The states behind a state are added before it. -/
def forwardState (target : Nat) :
    Nat → SetProgram → List (List ByteRange) → Option (SetProgram × Nat)
  | 0, set, _ => some (set, target)
  | length + 1, set, rows => do
    let branches := rows.splitBy fun a b => a.head? == b.head?
    let (set, key) ← branches.foldlM
      (fun (set, key) branch => do
        let (low, high) := (branch.head?.bind List.head?).getD (0, 0)
        let rest := branch.map List.tail
        let (set, next) ←
          if rest = [[]] then some (set, target) else set.forwardState target length rest
        some (set, next :: high :: low :: key))
      (set, [])
    set.state key.reverse (Program.transitionSize * branches.length)

/-- The states of a row that is read backward, the first range last. -/
def backwardRow (target : Nat) (set : SetProgram) (row : List ByteRange) : Option SetProgram := do
  let (set, _) ← row.foldlM
    (fun (set, next) (low, high) => set.state [next, low, high] 0) (set, target)
  some set

end SetProgram

namespace Program

/-- Adds the states that read a character out of normal ranges. -/
def addSet (program : Program) (direction : Direction) (ranges : List (Nat × Nat)) :
    Option Program :=
  if ranges.all (·.2 < 0x80) then program.grow 2 (transitionSize * ranges.length)
  else
    let rows := ranges.flatMap fun range => Text.Utf8.rows range.1 range.2
    match direction with
    | .forward => do
      let grown ← program.grow 1 0
      let (set, _) ← SetProgram.forwardState program.states 4 ⟨grown, 10000, ∅⟩ rows
      some set.program
    | .backward => do
      let grown ← program.grow 2 (branchSize * rows.length)
      let set ← rows.foldlM (SetProgram.backwardRow (program.states + 1)) ⟨grown, 1000, ∅⟩
      some set.program

end Program
end DalvikFacts
