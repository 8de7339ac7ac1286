import DalvikFacts.AddressMap
import DalvikFacts.CarryOver
import DalvikFacts.Extract
import DalvikFacts.FieldAccess
import DalvikFacts.Pending
import Std.Data.HashSet

/-!
# The state of a method

What the extraction of one method knows from the start, and what it gathers on its way through
the instructions.  Variables are declared just before their first use, each once.
-/

namespace DalvikFacts

/-- What is known about a method from the start. -/
structure MethodContext where
  container : Container
  definition : MethodDef
  sig : MethodSig
  /-- The number of registers below the parameters. -/
  localCount : Nat

/-- A `move-exception`, bound to its handlers once these are known. -/
structure CaughtException where
  reg : Reg
  address : Address
  index : Nat
  deriving DecidableEq

/-- What is gathered on the way through a method. -/
structure MethodState where
  declared : Std.HashSet String
  counters : Counters
  addresses : AddressMap
  carry : CarryOver
  fills : Pending ArrayFill
  switches : Pending SwitchUse
  catches : Array CaughtException
  accesses : Array FieldAccess

/-- An action on the state of a method. -/
abbrev MethodEmit := Emit MethodState

/-- The state before the first instruction. -/
def MethodState.start : MethodState where
  declared := {}
  counters := .empty
  addresses := .empty
  carry := .empty
  fills := .empty
  switches := .empty
  catches := #[]
  accesses := #[]

namespace MethodState

/-- Changes what is carried to the next instructions. -/
def withCarry (state : MethodState) (change : CarryOver → CarryOver) : MethodState :=
  { state with carry := change state.carry }

/-- Changes the address map. -/
def withAddresses (state : MethodState) (change : AddressMap → AddressMap) : MethodState :=
  { state with addresses := change state.addresses }

/-- An instruction is reached. -/
def reach (state : MethodState) (address : Address) (index : Nat) : MethodState :=
  state.withAddresses (·.insert address index)

end MethodState

namespace MethodContext

/-- The identifier of the method. -/
def id (cx : MethodContext) : String := cx.sig.id

/-- The source line of an instruction. -/
def line? (cx : MethodContext) (here : LocatedInstr) : Option Nat :=
  match cx.definition.code with
  | none => none
  | some code => lineAt? code.debugItems here.address

/-- The variable of a register: a local below the parameters, a parameter above. -/
def variableOf (cx : MethodContext) (reg : Reg) : String :=
  if reg.number.toNat < cx.localCount then Identifier.localVariable cx.id reg.number.toNat
  else Identifier.parameter cx.id (reg.number.toNat - cx.localCount)

/-- The identifier of the instruction of some kind at an index. -/
def insn (cx : MethodContext) (kind : String) (index : Nat) : String :=
  Identifier.instruction cx.id kind index

/-- Emits a notice about the method. -/
def notice {σ : Type} (cx : MethodContext) (notice : MethodNotice) : Emit σ Unit :=
  Emit.notice (.method cx.id notice)

/-- Declares a variable, unless it is declared already. -/
def declare (cx : MethodContext) (var : String) : MethodEmit Unit := do
  if !(← get).declared.contains var then
    modify fun state => { state with declared := state.declared.insert var }
    Emit.row .varDeclaringMethod [var, cx.id]

/-- The variable of a register, declared. -/
def use (cx : MethodContext) (reg : Reg) : MethodEmit String := do
  cx.declare (cx.variableOf reg)
  return cx.variableOf reg

/-- The next number of a kind. -/
def nextNumber (kind : String) : MethodEmit Nat :=
  modifyGet fun state =>
    (state.counters.peek kind, { state with counters := state.counters.advance kind })

/-- The identifier of the next instruction of a kind that is numbered. -/
def numberedInsn (cx : MethodContext) (kind : String) : MethodEmit String := do
  return cx.insn kind (← nextNumber kind)

/-- The kind of instructions that assign a variable. -/
def assignKind : String := "assign"

/-- The identifier of an instruction that assigns a variable. -/
def assignInsn (cx : MethodContext) (index : Nat) : String :=
  cx.insn assignKind index

/-- Emits the assignment of an object. -/
def writeObject (cx : MethodContext) (here : LocatedInstr) (heap var : String) :
    MethodEmit Unit :=
  Emit.row .assignHeapAllocation
    [cx.assignInsn here.index, toString here.index, heap, var, cx.id,
      Identifier.lineText (cx.line? here)]

/-- Emits the allocation of an object, and returns its identifier. -/
def allocate (cx : MethodContext) (here : LocatedInstr) (type var : String) (isEmpty : Bool) :
    MethodEmit String := do
  let heap := Identifier.allocation cx.id type (← nextNumber type)
  Emit.row .normalHeap [heap, type]
  cx.writeObject here heap var
  if isEmpty then Emit.row .emptyArray [heap]
  return heap

end MethodContext
end DalvikFacts
