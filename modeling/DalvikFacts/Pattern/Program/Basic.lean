/-!
# Sizes of programs

A program is a table of states, numbered in the order in which they are added.  Every state takes
as many bytes as any other one, and its ways out take more.  Of a program only its size is known
here.  A program never grows beyond `Program.largest`.
-/

namespace DalvikFacts

/-- How large a program is. -/
structure Program where
  states : Nat
  /-- The bytes of the ways out that are kept apart from their states. -/
  ways : Nat
  deriving DecidableEq

namespace Program

/-- A program without states. -/
def start : Program := ⟨0, 0⟩

/-- The bytes of a state. -/
def stateSize : Nat := 32

/-- The bytes of one way out of a state that reads a byte. -/
def transitionSize : Nat := 8

/-- The bytes of one way out of a state that reads nothing. -/
def branchSize : Nat := 4

/-- The most bytes that a program may take. -/
def largest : Nat := 0xa00000

/-- The bytes of a program. -/
def size (program : Program) : Nat := stateSize * program.states + program.ways

/-- Adds states and ways out, unless the program gets too large. -/
def grow (program : Program) (states ways : Nat) : Option Program :=
  let grown : Program := ⟨program.states + states, program.ways + ways⟩
  if grown.size ≤ largest then some grown else none

theorem grow_eq_some_iff {program grown : Program} {states ways : Nat} :
    program.grow states ways = some grown ↔
      grown = ⟨program.states + states, program.ways + ways⟩ ∧ grown.size ≤ largest := by
  dsimp only [grow]
  split <;> grind

end Program

/-- The end from which a program reads. -/
inductive Direction
  | forward
  | backward
  deriving DecidableEq

end DalvikFacts
