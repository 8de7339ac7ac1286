import DalvikFacts.Register

/-!
# Values carried between instructions

Some operations take two instructions: a result is moved out by the instruction after the one that
made it, and an array is known to be empty when its size was just set to zero.  `CarryOver` holds
what the second instruction needs; whatever is taken is gone.
-/

namespace DalvikFacts

/-- What made a result. -/
inductive Producer
  /-- An invocation, by its identifier. -/
  | invocation (insn : String)
  /-- An array filled with registers. -/
  | filledArray (type : String) (elements : List Reg)
  deriving DecidableEq

/-- A result waiting to be moved out. -/
structure PendingResult where
  index : Nat
  producer : Producer
  deriving DecidableEq

/-- A register set to zero. -/
structure ZeroedRegister where
  index : Nat
  reg : Reg
  deriving DecidableEq

/-- An array that was allocated. -/
structure NewArray where
  index : Nat
  heap : String
  deriving DecidableEq

/-- What is carried between the instructions of a method. -/
structure CarryOver where
  result : Option PendingResult
  zeroed : Option ZeroedRegister
  newArray : Option NewArray
  deriving DecidableEq

namespace CarryOver

/-- Nothing is carried. -/
def empty : CarryOver := ⟨none, none, none⟩

/-- An instruction makes a result. -/
def produce (carry : CarryOver) (index : Nat) (producer : Producer) : CarryOver :=
  { carry with result := some ⟨index, producer⟩ }

/-- The result is taken. -/
def dropResult (carry : CarryOver) : CarryOver :=
  { carry with result := none }

/-- A 32 bit literal is loaded: zero marks the register, another literal unmarks it. -/
def loadNarrow (carry : CarryOver) (index : Nat) (reg : Reg) (literal : Int) : CarryOver :=
  if literal = 0 then { carry with zeroed := some ⟨index, reg⟩ }
  else if carry.zeroed.any (·.reg == reg) then { carry with zeroed := none }
  else carry

/-- Whether the instruction just before an index set a register to zero. -/
def zeroSize (carry : CarryOver) (index : Nat) (size : Reg) : Bool :=
  carry.zeroed.any fun zeroed => zeroed.reg == size && zeroed.index + 1 == index

/-- The zeroed register is taken. -/
def dropZeroed (carry : CarryOver) : CarryOver :=
  { carry with zeroed := none }

/-- An array is allocated. -/
def setNewArray (carry : CarryOver) (array : NewArray) : CarryOver :=
  { carry with newArray := some array }

/-- The array is taken. -/
def dropNewArray (carry : CarryOver) : CarryOver :=
  { carry with newArray := none }

end CarryOver
end DalvikFacts
