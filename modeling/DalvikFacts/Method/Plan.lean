import DalvikFacts.Method.Allocation
import DalvikFacts.Method.Control
import DalvikFacts.Method.Invocation

/-!
# Plans of instructions

What an instruction does is planned before it is done.  The plan looks up everything that the
instruction refers to, and is the only part that can fail; carrying it out emits the facts.  So a
failing instruction leaves no fact behind.
-/

namespace DalvikFacts

/-- An outcome as a look-up. -/
def Lookup.ofExcept {α : Type} (outcome : Except ExtractionError α) : Lookup α :=
  match outcome with
  | .ok value => pure value
  | .error error => throw error

namespace MethodContext

/-- The type at a position. -/
def typeAt (cx : MethodContext) (index : Nat) : Lookup Descriptor :=
  Lookup.entry (cx.container.typeAt index)

/-- The signature of the method at a position. -/
def methodSig (cx : MethodContext) (index : Nat) : Lookup MethodSig := do
  return (← SignatureCache.method cx.container index).value

/-- The signature of the field at a position. -/
def fieldSig (cx : MethodContext) (index : Nat) : Lookup FieldSig := do
  return (← SignatureCache.field cx.container index).value

/-- The identifier of the target of a method handle. -/
def handleTarget (cx : MethodContext) (handle : MethodHandle) : Lookup String :=
  match handle.target with
  | .method index => do return (← cx.methodSig index).id
  | .field index => do return (← cx.fieldSig index).id

/-- An invocation of a method with its own parameters. -/
def planCall (cx : MethodContext) (kind : CallKind) (args : Operands) (method : Nat) :
    Lookup Call := do
  let callee ← cx.methodSig method
  let arguments ← Lookup.ofExcept
    (Arguments.split cx.id args.registers callee.paramTypes kind.hasReceiver)
  return { kind, callee, arguments }

/-- An invocation of a method with the parameters of a prototype. -/
def planPolymorphicCall (cx : MethodContext) (args : Operands) (method proto : Nat) :
    Lookup Call := do
  let callee ← cx.methodSig method
  let proto ← Lookup.entry (cx.container.protoAt proto)
  let arguments ← Lookup.ofExcept (Arguments.split cx.id args.registers proto.params true)
  return { kind := .virtual, callee, arguments }

/-- An invocation through a call site. -/
def planCustomCall (cx : MethodContext) (args : Operands) (callSite : Nat) :
    Lookup CustomCall := do
  let site ← Lookup.entry (cx.container.callSiteAt callSite)
  let proto ← Lookup.entry (cx.container.protoAt site.proto)
  let handle ← Lookup.entry (cx.container.methodHandleAt site.bootstrap)
  let bootstrap ← cx.handleTarget handle
  let arguments ← Lookup.ofExcept (Arguments.split cx.id args.registers proto.params false)
  return { name := site.name, proto, bootstrap, handleKind := handle.kind, arguments }

/-- A method handle loaded into a register. -/
def planMethodHandle (cx : MethodContext) (here : LocatedInstr) (dst : Reg) (handle : Nat) :
    Lookup (MethodEmit Unit) := do
  let handle ← Lookup.entry (cx.container.methodHandleAt handle)
  match handle.target with
  | .method index => return cx.writeMethodHandle here dst (← cx.methodSig index)
  | .field index => return cx.writeFieldHandle here dst (← cx.fieldSig index)

/-- A result moved into a register: the instruction just before must have made one. -/
def planResult (cx : MethodContext) (here : LocatedInstr) (dst : Reg)
    (result : Option PendingResult) : Lookup (MethodEmit Unit) :=
  match result with
  | none => throw (.missingResult cx.id here.index)
  | some pending =>
    if pending.index + 1 = here.index then return cx.writeResult here dst pending.producer
    else throw (.staleResult cx.id here.index pending.index)

/-- What an instruction does, given the result that waits to be moved out. -/
def plan (cx : MethodContext) (here : LocatedInstr) (result : Option PendingResult) :
    Lookup (MethodEmit Unit) :=
  match here.instr with
  | .nop => return pure ()
  | .move _ _ dst src => return cx.writeMove here dst src
  | .moveResult _ dst => cx.planResult here dst result
  | .moveException dst => return writeCatch here dst
  | .returnVoid => return cx.writeReturnVoid here
  | .returnValue _ src => return cx.writeReturn here src
  | .const form dst literal => return cx.writeNarrowNumber here dst (form.value literal)
  | .constWide form dst literal => return cx.writeNumber here dst (form.value literal)
  | .constString _ dst string => do
    return cx.writeString here dst (← Lookup.entry (cx.container.stringAt string))
  | .constClass dst type => do return cx.writeClass here dst (← cx.typeAt type).sourceName
  | .monitor action object => return cx.writeMonitor here action object
  | .checkCast object type => do return cx.writeCast here object (← cx.typeAt type).sourceName
  | .instanceOf dst object type => do
    return cx.writeInstanceOf here dst object (← cx.typeAt type).sourceName
  | .arrayLength dst array => return cx.writeUnop here dst array
  | .newInstance dst type => do
    return cx.writeNewInstance here dst (← cx.typeAt type).sourceName
  | .newArray dst size type => do return cx.writeNewArray here dst size (← cx.typeAt type)
  | .filledNewArray elements type => do
    return writeFilledArray here elements.registers (← cx.typeAt type)
  | .fillArrayData array offset => return cx.writeFillArray here array offset
  | .throw exception => return cx.writeThrow here exception
  | .goto _ _ => return cx.writeGoto here
  | .switch kind key offset => return cx.writeSwitch here kind key offset
  | .compare _ dst left right => return cx.writeBinop here dst left right
  | .branch test left right _ => return cx.writeBranch here test left (some right)
  | .branchZero test left _ => return cx.writeBranch here test left none
  | .arrayAccess access _ value array index =>
    return cx.writeArrayAccess here access value array index
  | .instanceField access _ value object field => do
    return cx.writeFieldAccess here access value (some object) (← cx.fieldSig field)
  | .staticField access _ value field => do
    return cx.writeFieldAccess here access value none (← cx.fieldSig field)
  | .invoke kind args method => do
    let call ← cx.planCall (.ofInvoke kind) args method
    return do let _ ← cx.writeCall here call
  | .unop _ dst src => return cx.writeUnop here dst src
  | .binop _ dst left right => return cx.writeBinop here dst left right
  | .binopInPlace _ dst right => return cx.writeBinop here dst dst right
  | .binopLiteral _ dst left _ => return cx.writeBinopLiteral here dst left
  | .binopSmallLiteral _ dst left _ => return cx.writeBinopLiteral here dst left
  | .invokePolymorphic args method proto => do
    return cx.writePolymorphicCall here (← cx.planPolymorphicCall args method proto)
  | .invokeCustom args callSite => do
    return cx.writeCustomCall here (← cx.planCustomCall args callSite)
  | .constMethodHandle dst handle => cx.planMethodHandle here dst handle
  | .constMethodType dst proto => do
    return cx.writeMethodType here dst (← Lookup.entry (cx.container.protoAt proto))
  | .packedSwitchPayload firstKey targets =>
    return cx.writeSwitchPayload here .packed ((packedKeys firstKey targets.length).zip targets)
  | .sparseSwitchPayload keys targets =>
    return cx.writeSwitchPayload here .sparse (keys.zip targets)
  | .arrayPayload width values => return cx.writeArrayPayload here width values
  | .optimized opcode _ => return cx.notice (.optimizedOpcode opcode here.index)
  | .unknown .. =>
    throw (.unknownOpcode cx.id here.instr.toString (Identifier.lineText (cx.line? here)))

end MethodContext
end DalvikFacts
