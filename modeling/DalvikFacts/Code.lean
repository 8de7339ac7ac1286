import DalvikFacts.Address
import DalvikFacts.Descriptor
import DalvikFacts.Instruction.Basic

/-!
# Method bodies

Instructions with their try blocks and debug information.  An instruction is located by its index,
counted from one, and by its address: the start address plus the widths of all instructions before
it.
-/

namespace DalvikFacts

/-- A handler of a try block; without a type it catches everything. -/
structure CatchHandler where
  exceptionType : Option Descriptor
  address : Address
  deriving DecidableEq

/-- A region of code covered by exception handlers. -/
structure TryBlock where
  start : Address
  /-- The width of the region in code units. -/
  length : UInt64
  handlers : List CatchHandler
  deriving DecidableEq

/-- The address just past the region of a try block. -/
def TryBlock.stop (block : TryBlock) : Address :=
  block.start + block.length

/-- An item of debug information. -/
inductive DebugItem
  | lineNumber (address : Address) (line : Nat)
  | prologueEnd (address : Address)
  | epilogueBegin (address : Address)
  | startLocal (address : Address) (register : Nat) (name : Option String)
      (type : Option Descriptor)
  | endLocal (address : Address) (register : Nat)
  | restartLocal (address : Address) (register : Nat)
  | setSourceFile (address : Address) (name : Option String)
  deriving DecidableEq

/-- A method body. -/
structure CodeItem where
  registers : Nat
  instructions : List Instr
  tries : List TryBlock
  debugItems : List DebugItem
  deriving DecidableEq

/-- An instruction with its place in the method body. -/
structure LocatedInstr where
  index : Nat
  address : Address
  instr : Instr
  deriving DecidableEq

/-- The address just past an instruction. -/
def LocatedInstr.next (located : LocatedInstr) : Address :=
  located.address.advance located.instr.size

/-- The address of a prologue end marker that moves the start of a method. -/
def DebugItem.movedEntry? : DebugItem → Option Address
  | prologueEnd address => if address = Address.entry then none else some address
  | _ => none

/-- Gives successive instructions their index and address. -/
def locateFrom (index : Nat) (address : Address) : List Instr → List LocatedInstr
  | [] => []
  | instr :: rest =>
    ⟨index, address, instr⟩ :: locateFrom (index + 1) (address.advance instr.size) rest

/-- The width of successive instructions in code units. -/
def totalSize : List Instr → Nat
  | [] => 0
  | instr :: rest => instr.size + totalSize rest

namespace CodeItem

/-- The address of the first instruction: the entry, unless a prologue end marker moves it. -/
def startAddress (code : CodeItem) : Address :=
  (code.debugItems.filterMap DebugItem.movedEntry?).getLast?.getD Address.entry

/-- The instructions of a method in order, with their indices and addresses. -/
def located (code : CodeItem) : List LocatedInstr :=
  locateFrom 1 code.startAddress code.instructions

/-- The address just past the last instruction. -/
def endAddress (code : CodeItem) : Address :=
  code.startAddress.advance (totalSize code.instructions)

end CodeItem

/-- The source line in force at an address: that of the line number item with the greatest address
up to it, the last such item when several have that address. -/
def lineAt? (items : List DebugItem) (address : Address) : Option Nat :=
  (items.foldl closer none).map Prod.snd
where
  /-- The better of the item found so far and the next one. -/
  closer (best : Option (Address × Nat)) : DebugItem → Option (Address × Nat)
    | .lineNumber position line =>
      if position ≤ address ∧ best.all (·.1 ≤ position) then some (position, line) else best
    | _ => best

end DalvikFacts
