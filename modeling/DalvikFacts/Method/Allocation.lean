import DalvikFacts.Method.State

/-!
# Allocations

The facts of instructions that allocate objects and give arrays their elements.  The elements of
an array come from the registers of a filled array, or from a payload that a `fill-array-data`
points to; the payload goes to the array allocated last.
-/

namespace DalvikFacts.MethodContext

/-- An object of a class. -/
def writeNewInstance (cx : MethodContext) (here : LocatedInstr) (dst : Reg) (type : String) :
    MethodEmit Unit := do
  let dst ← cx.use dst
  let _ ← cx.allocate here type dst false

/-- Emits an array type and the type of its elements. -/
def writeArrayType {σ : Type} (type : Descriptor) : Emit σ Unit := do
  Emit.row .arrayType [type.sourceName]
  match type.component? with
  | some component => Emit.row .componentType [type.sourceName, component.sourceName]
  | none => pure ()

/-- An array without elements of its own.  It is empty when its size was just set to zero. -/
def writeNewArray (cx : MethodContext) (here : LocatedInstr) (dst size : Reg)
    (type : Descriptor) : MethodEmit Unit := do
  writeArrayType type
  let isEmpty := (← get).carry.zeroSize here.index size
  modify (·.withCarry (·.dropZeroed))
  let dst ← cx.use dst
  let heap ← cx.allocate here type.sourceName dst isEmpty
  modify (·.withCarry (·.setNewArray ⟨here.index, heap⟩))

/-- An array filled with registers; the result move that follows allocates it. -/
def writeFilledArray (here : LocatedInstr) (elements : List Reg) (type : Descriptor) :
    MethodEmit Unit := do
  writeArrayType type
  modify (·.withCarry (·.produce here.index (.filledArray type.sourceName elements)))

/-- Emits the registers that fill an array. -/
def writeFilledElements (cx : MethodContext) (here : LocatedInstr) (array heap : String)
    (elements : List Reg) : MethodEmit Unit :=
  elements.zipIdx.forM fun (element, position) => do
    let element ← cx.use element
    Emit.row .arrayInitialValueFromLocal
      [cx.assignInsn here.index, toString here.index, array, toString position, element, heap,
        cx.id]

/-- Emits the facts of a result in its register. -/
def writeTaken (cx : MethodContext) (here : LocatedInstr) (dst : Reg) (producer : Producer) :
    MethodEmit Unit := do
  let dst ← cx.use dst
  match producer with
  | .invocation insn => Emit.row .assignReturnValue [insn, dst]
  | .filledArray type elements =>
    let heap ← cx.allocate here type dst elements.isEmpty
    cx.writeFilledElements here dst heap elements

/-- A result moved into a register. -/
def writeResult (cx : MethodContext) (here : LocatedInstr) (dst : Reg) (producer : Producer) :
    MethodEmit Unit := do
  modify (·.withCarry (·.dropResult))
  cx.writeTaken here dst producer

/-- How many instructions may lie between an array and the instruction that fills it. -/
def fillDistance : Nat := 2

/-- An array to be filled from a payload. -/
def writeFillArray (cx : MethodContext) (here : LocatedInstr) (array : Reg) (offset : Int) :
    MethodEmit Unit := do
  match (← get).carry.newArray with
  | none => cx.notice (.fillWithoutArray here.index)
  | some newArray =>
    modify (·.withCarry (·.dropNewArray))
    if newArray.index + fillDistance < here.index then
      cx.notice (.fillFarFromArray here.index newArray.index)
    match Address.offset? here.address offset with
    | none => cx.notice (.fillBeforeEntry here.index)
    | some target =>
      modify fun state =>
        { state with
          fills := state.fills.register target ⟨array, here.index, newArray.heap⟩ }

/-- The type of the elements of a payload, by their width in bytes. -/
def elementType? : Nat → Option String
  | 1 => some "byte"
  | 2 => some "short"
  | 4 => some "int"
  | 8 => some "long"
  | _ => none

/-- Emits the elements of a payload for one of the arrays that it fills. -/
def writeFill (cx : MethodContext) (type : String) (values : List Int) (fill : ArrayFill) :
    MethodEmit Unit := do
  let array ← cx.use fill.array
  values.zipIdx.forM fun (value, position) => do
    Emit.row .numConstantRaw [toString value, type]
    Emit.row .arrayInitialValueFromConst
      [cx.assignInsn fill.index, toString fill.index, array, toString position, toString value,
        fill.heap, cx.id]

/-- A payload with the elements of arrays. -/
def writeArrayPayload (cx : MethodContext) (here : LocatedInstr) (width : Nat)
    (values : List Int) : MethodEmit Unit := do
  let fills := (← get).fills.waitingAt here.address
  modify fun state => { state with fills := state.fills.release here.address }
  if fills.isEmpty then cx.notice (.unusedArrayPayload here.address)
  else
    match elementType? width with
    | none => cx.notice (.unsupportedWidth width)
    | some type => fills.forM (cx.writeFill type values)

end DalvikFacts.MethodContext
