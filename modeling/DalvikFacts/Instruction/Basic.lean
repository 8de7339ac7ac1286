import DalvikFacts.Register

/-!
# Instructions

The instruction set, one constructor a family.  The members of a family differ in the width of
their operands, in the kind of value they handle or in an operator; these differences are small
enumerations of their own, from which mnemonics are put together.  References into the tables of
a container are positions.
-/

namespace DalvikFacts

/-- The three ways to handle a value: as 32 bits, as 64 bits, as a reference. -/
inductive MoveKind
  | narrow
  | wide
  | object
  deriving DecidableEq

/-- The widths of the two registers of a move. -/
inductive MoveForm
  | short
  | from16
  | full
  deriving DecidableEq

/-- The encodings of a 32 bit literal. -/
inductive NarrowForm
  | four
  | sixteen
  | full
  | high
  deriving DecidableEq

/-- The encodings of a 64 bit literal. -/
inductive WideForm
  | sixteen
  | thirtyTwo
  | full
  | high
  deriving DecidableEq

/-- The two halves of a synchronized section. -/
inductive MonitorAction
  | enter
  | exit
  deriving DecidableEq

/-- The widths of the offset of an unconditional branch. -/
inductive GotoForm
  | eight
  | sixteen
  | thirtyTwo
  deriving DecidableEq

/-- The two layouts of a switch: consecutive keys, or a list of keys. -/
inductive SwitchKind
  | packed
  | sparse
  deriving DecidableEq

/-- Three-way comparisons; the floating point ones differ in the result given for NaN. -/
inductive CompareOp
  | lessFloat
  | greaterFloat
  | lessDouble
  | greaterDouble
  | long
  deriving DecidableEq

/-- The tests of conditional branches. -/
inductive TestOp
  | eq
  | ne
  | lt
  | ge
  | gt
  | le
  deriving DecidableEq

/-- Reading or writing an array element or a field. -/
inductive Access
  | load
  | store
  deriving DecidableEq

/-- The kinds of values that array elements and fields hold. -/
inductive SlotKind
  | plain
  | wide
  | object
  | boolean
  | byte
  | char
  | short
  deriving DecidableEq

/-- How the callee of an invocation is found. -/
inductive InvokeKind
  | virtual
  | super
  | direct
  | static
  | interface
  deriving DecidableEq

/-- Unary operations and conversions. -/
inductive Unop
  | negInt
  | notInt
  | negLong
  | notLong
  | negFloat
  | negDouble
  | intToLong
  | intToFloat
  | intToDouble
  | longToInt
  | longToFloat
  | longToDouble
  | floatToInt
  | floatToLong
  | floatToDouble
  | doubleToInt
  | doubleToLong
  | doubleToFloat
  | intToByte
  | intToChar
  | intToShort
  deriving DecidableEq

/-- Operators on integers. -/
inductive IntegerOp
  | add
  | sub
  | mul
  | div
  | rem
  | and
  | or
  | xor
  | shl
  | shr
  | ushr
  deriving DecidableEq

/-- Operators on floating point numbers. -/
inductive FloatingOp
  | add
  | sub
  | mul
  | div
  | rem
  deriving DecidableEq

/-- Binary operations on two registers. -/
inductive Binop
  | int (op : IntegerOp)
  | long (op : IntegerOp)
  | float (op : FloatingOp)
  | double (op : FloatingOp)
  deriving DecidableEq

/-- Binary operations of a register and a 16 bit literal. -/
inductive LiteralOp
  | add
  | rsub
  | mul
  | div
  | rem
  | and
  | or
  | xor
  deriving DecidableEq

/-- Shifts of a register by an 8 bit literal. -/
inductive ShiftOp
  | shl
  | shr
  | ushr
  deriving DecidableEq

/-- Binary operations of a register and an 8 bit literal. -/
inductive SmallLiteralOp
  | common (op : LiteralOp)
  | shift (op : ShiftOp)
  deriving DecidableEq

/-- An instruction. -/
inductive Instr
  | nop
  | move (kind : MoveKind) (form : MoveForm) (dst src : Reg)
  | moveResult (kind : MoveKind) (dst : Reg)
  | moveException (dst : Reg)
  | returnVoid
  | returnValue (kind : MoveKind) (src : Reg)
  | const (form : NarrowForm) (dst : Reg) (literal : Int)
  | constWide (form : WideForm) (dst : Reg) (literal : Int)
  | constString (jumbo : Bool) (dst : Reg) (string : Nat)
  | constClass (dst : Reg) (type : Nat)
  | monitor (action : MonitorAction) (object : Reg)
  | checkCast (object : Reg) (type : Nat)
  | instanceOf (dst object : Reg) (type : Nat)
  | arrayLength (dst array : Reg)
  | newInstance (dst : Reg) (type : Nat)
  | newArray (dst size : Reg) (type : Nat)
  | filledNewArray (elements : Operands) (type : Nat)
  | fillArrayData (array : Reg) (offset : Int)
  | throw (exception : Reg)
  | goto (form : GotoForm) (offset : Int)
  | switch (kind : SwitchKind) (key : Reg) (offset : Int)
  | compare (op : CompareOp) (dst left right : Reg)
  | branch (test : TestOp) (left right : Reg) (offset : Int)
  | branchZero (test : TestOp) (left : Reg) (offset : Int)
  | arrayAccess (access : Access) (kind : SlotKind) (value array index : Reg)
  | instanceField (access : Access) (kind : SlotKind) (value object : Reg) (field : Nat)
  | staticField (access : Access) (kind : SlotKind) (value : Reg) (field : Nat)
  | invoke (kind : InvokeKind) (args : Operands) (method : Nat)
  | unop (op : Unop) (dst src : Reg)
  | binop (op : Binop) (dst left right : Reg)
  | binopInPlace (op : Binop) (dst right : Reg)
  | binopLiteral (op : LiteralOp) (dst left : Reg) (literal : Int)
  | binopSmallLiteral (op : SmallLiteralOp) (dst left : Reg) (literal : Int)
  | invokePolymorphic (args : Operands) (method proto : Nat)
  | invokeCustom (args : Operands) (callSite : Nat)
  | constMethodHandle (dst : Reg) (handle : Nat)
  | constMethodType (dst : Reg) (proto : Nat)
  | packedSwitchPayload (firstKey : Int) (targets : List Int)
  | sparseSwitchPayload (keys targets : List Int)
  | arrayPayload (width : Nat) (values : List Int)
  /-- An opcode only found in optimized code, with its width in code units. -/
  | optimized (opcode units : Nat)
  /-- An opcode that could not be identified, with its width in code units. -/
  | unknown (opcode units : Nat)
  deriving DecidableEq

namespace Instr

/-- The relative offset, in code units, of a branch or of an instruction with a payload. -/
def targetOffset? : Instr → Option Int
  | goto _ offset | switch _ _ offset | fillArrayData _ offset
  | branch _ _ _ offset | branchZero _ _ offset => some offset
  | _ => none

/-- Whether an instruction is data pointed to by another one. -/
def isPayload : Instr → Bool
  | packedSwitchPayload .. | sparseSwitchPayload .. | arrayPayload .. => true
  | _ => false

/-- Whether an instruction can be left out without harm to the numbering of the others. -/
def isOptional : Instr → Bool
  | optimized .. => true
  | _ => false

/-- Whether an instruction makes a value for a result move that follows it. -/
def producesResult : Instr → Bool
  | invoke .. | invokePolymorphic .. | invokeCustom .. | filledNewArray .. => true
  | _ => false

/-- The width of an invocation in code units does not depend on how its operands are given. -/
def operandSize (extended : Bool) : Nat :=
  if extended then 4 else 3

/-- The width of an instruction in code units. -/
def size : Instr → Nat
  | nop | returnVoid | moveResult .. | moveException _ | returnValue .. | monitor ..
  | arrayLength .. | throw _ | unop .. | binopInPlace .. => 1
  | move _ .short _ _ => 1
  | move _ .from16 _ _ => 2
  | move _ .full _ _ => 3
  | const .four _ _ => 1
  | const .sixteen _ _ | const .high _ _ => 2
  | const .full _ _ => 3
  | constWide .sixteen _ _ | constWide .high _ _ => 2
  | constWide .thirtyTwo _ _ => 3
  | constWide .full _ _ => 5
  | constString false _ _ => 2
  | constString true _ _ => 3
  | constClass .. | checkCast .. | instanceOf .. | newInstance .. | newArray .. => 2
  | filledNewArray .. | invoke .. | invokeCustom .. => operandSize false
  | invokePolymorphic .. => operandSize true
  | fillArrayData .. | switch .. => 3
  | goto .eight _ => 1
  | goto .sixteen _ => 2
  | goto .thirtyTwo _ => 3
  | compare .. | branch .. | branchZero .. | arrayAccess .. | instanceField .. | staticField ..
  | binop .. | binopLiteral .. | binopSmallLiteral .. => 2
  | constMethodHandle .. | constMethodType .. => 2
  | packedSwitchPayload _ targets => targets.length * 2 + 4
  | sparseSwitchPayload _ targets => targets.length * 4 + 2
  | arrayPayload width values => (width * values.length + 1) / 2 + 4
  | optimized _ units | unknown _ units => units

end Instr

/-- The number loaded by a 32 bit literal. -/
def NarrowForm.value (form : NarrowForm) (literal : Int) : Int :=
  match form with
  | .high => literal * 0x10000
  | _ => literal

/-- The number loaded by a 64 bit literal. -/
def WideForm.value (form : WideForm) (literal : Int) : Int :=
  match form with
  | .high => literal * 0x1000000000000
  | _ => literal

/-- The keys of a packed switch: consecutive 32 bit numbers that wrap around. -/
def packedKeys (firstKey : Int) (count : Nat) : List Int :=
  (List.range count).map fun (i : Nat) => (firstKey + Int.ofNat i).bmod 0x100000000

end DalvikFacts
